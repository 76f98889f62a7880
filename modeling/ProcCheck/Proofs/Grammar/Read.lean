import ProcCheck.Grammar.Program
import ProcCheck.Proofs.Token.Lexeme

/-!
# Readers that succeed

For each piece that readers are made of, an equation says when it succeeds, with what, and what
it leaves. The equations take a run apart and put one together alike. `Reads p R` says that `p`
takes its tokens from the front, and how they are related to what it returns.
-/

namespace ProcCheck

/-- Dropping what an action returns. -/
theorem discard_eq_bind {m : Type → Type} [Monad m] [LawfulMonad m] {α : Type} (x : m α) :
    discard x = x >>= fun _ => pure () := by
  change Functor.mapConst PUnit.unit x = _
  rw [map_const, Function.comp_apply, map_eq_pure_bind]

namespace Grammar

variable {α β : Type} {ts rest : List Token}

/-! ## Pieces of readers -/

@[simp] theorem pure_ok {a b : α} : (pure a : Parse α) ts = .ok (b, rest) ↔ a = b ∧ ts = rest := by
  show Except.ok (a, ts) = Except.ok (b, rest) ↔ _
  rw [Except.ok.injEq, Prod.mk.injEq]

theorem bind_ok {p : Parse α} {f : α → Parse β} {b : β} :
    (p >>= f) ts = .ok (b, rest) ↔
      ∃ a mid, p ts = .ok (a, mid) ∧ f a mid = .ok (b, rest) := by
  simp only [bind, StateT.bind, Except.bind]
  rcases p ts with refusal | ⟨a, mid⟩
  · simp
  · constructor
    · exact fun h => ⟨a, mid, rfl, h⟩
    · rintro ⟨_, _, same, h⟩
      cases same
      exact h

theorem bind_of_ok {p : Parse α} {f : α → Parse β} {a : α} (run : p ts = .ok (a, rest)) :
    (p >>= f) ts = f a rest := by
  simp [bind, StateT.bind, Except.bind, run]

theorem bind_of_error {p : Parse α} {f : α → Parse β} {r : Refusal} (run : p ts = .error r) :
    (p >>= f) ts = .error r := by
  simp [bind, StateT.bind, Except.bind, run]

theorem map_ok {p : Parse α} {f : α → β} {b : β} :
    (f <$> p) ts = .ok (b, rest) ↔ ∃ a, p ts = .ok (a, rest) ∧ f a = b := by
  rw [map_eq_pure_bind, bind_ok]
  constructor
  · rintro ⟨a, mid, run, same⟩
    obtain ⟨rfl, rfl⟩ := pure_ok.1 same
    exact ⟨a, run, rfl⟩
  · rintro ⟨a, run, rfl⟩
    exact ⟨a, rest, run, pure_ok.2 ⟨rfl, rfl⟩⟩

theorem discard_ok {p : Parse α} {u : Unit} :
    discard p ts = .ok (u, rest) ↔ ∃ a, p ts = .ok (a, rest) := by
  rw [discard_eq_bind, bind_ok]
  constructor
  · rintro ⟨a, mid, run, same⟩
    obtain ⟨-, rfl⟩ := pure_ok.1 same
    exact ⟨a, run⟩
  · rintro ⟨a, run⟩
    exact ⟨a, rest, run, pure_ok.2 ⟨rfl, rfl⟩⟩

@[simp] theorem refuse_ok {expected : Expectation} {a : α} :
    ¬ (refuse expected : Parse α) ts = .ok (a, rest) := by
  simp [refuse]

theorem nextIs_ok {p : TokenKind → Bool} {b : Bool} :
    nextIs p ts = .ok (b, rest) ↔ b = ts.head?.any (p ·.kind) ∧ rest = ts := by
  simp only [nextIs, Except.ok.injEq, Prod.mk.injEq]
  exact and_congr eq_comm eq_comm

theorem expectWhere_ok {p : TokenKind → Bool} {expected : Expectation} {t : Token} :
    expectWhere p expected ts = .ok (t, rest) ↔ ts = t :: rest ∧ p t.kind := by
  cases ts with
  | nil => simp [expectWhere]
  | cons first more =>
    simp only [expectWhere]
    split
    next accepted =>
      simp only [Except.ok.injEq, Prod.mk.injEq, List.cons.injEq]
      exact ⟨fun ⟨h, h'⟩ => ⟨⟨h, h'⟩, h ▸ accepted⟩, And.left⟩
    next other =>
      simp only [reduceCtorEq, List.cons.injEq, false_iff]
      rintro ⟨⟨rfl, -⟩, accepted⟩
      exact other accepted

theorem expect_ok {kind : TokenKind} {expected : Expectation} {t : Token} :
    expect kind expected ts = .ok (t, rest) ↔ ts = t :: rest ∧ t.kind = kind := by
  simp [expect, expectWhere_ok]

theorem take?_ok {f : TokenKind → Option β} {o : Option (β × Token)} :
    take? f ts = .ok (o, rest) ↔
      (∃ b t, o = some (b, t) ∧ ts = t :: rest ∧ f t.kind = some b) ∨
        o = none ∧ rest = ts ∧ ∀ t ∈ ts.head?, f t.kind = none := by
  cases ts with
  | nil => simp [take?, eq_comm]
  | cons first more =>
    simp only [take?, List.head?_cons, Option.mem_def, Option.some.injEq, forall_eq']
    cases value : f first.kind with
    | none =>
      constructor
      · intro h
        cases h
        exact .inr ⟨rfl, rfl, rfl⟩
      · rintro (⟨b, t, rfl, same, h⟩ | ⟨rfl, rfl, -⟩)
        · cases same
          rw [value] at h
          cases h
        · rfl
    | some b =>
      constructor
      · intro h
        cases h
        exact .inl ⟨b, first, rfl, rfl, value⟩
      · rintro (⟨c, t, rfl, same, h⟩ | ⟨-, -, h⟩)
        · cases same
          rw [value] at h
          cases h
          rfl
        · cases h

theorem skip_ok {kind : TokenKind} {b : Bool} :
    skip kind ts = .ok (b, rest) ↔
      (b = true ∧ ∃ t, ts = t :: rest ∧ t.kind = kind) ∨
        b = false ∧ rest = ts ∧ ∀ t ∈ ts.head?, t.kind ≠ kind := by
  simp only [skip, bind_ok, take?_ok, pure_ok]
  constructor
  · rintro ⟨o, mid, ⟨_, t, rfl, rfl, h⟩ | ⟨rfl, rfl, h⟩, rfl, rfl⟩
    · exact .inl ⟨rfl, t, rfl, by simpa using h⟩
    · exact .inr ⟨rfl, rfl, by simpa using h⟩
  · rintro (⟨rfl, t, rfl, same⟩ | ⟨rfl, rfl, other⟩)
    · exact ⟨_, _, .inl ⟨(), t, rfl, rfl, by simp [same]⟩, rfl, rfl⟩
    · exact ⟨_, _, .inr ⟨rfl, rfl, by simpa using other⟩, rfl, rfl⟩

theorem unlessNext_ok {stop : TokenKind} {p : Parse α} {o : Option α} :
    unlessNext stop p ts = .ok (o, rest) ↔
      (o = none ∧ rest = ts ∧ ∃ t ∈ ts.head?, t.kind = stop) ∨
        ∃ a, o = some a ∧ p ts = .ok (a, rest) ∧ ∀ t ∈ ts.head?, t.kind ≠ stop := by
  have head : ts.head?.any (·.kind = stop) = true ↔ ∃ t ∈ ts.head?, t.kind = stop := by
    simp [Option.any_eq_true]
  simp only [unlessNext, bind_ok, nextIs_ok]
  constructor
  · rintro ⟨_, _, ⟨rfl, rfl⟩, h⟩
    split at h
    next stopped =>
      obtain ⟨rfl, rfl⟩ := pure_ok.1 h
      exact .inl ⟨rfl, rfl, head.1 stopped⟩
    next other =>
      obtain ⟨a, mid, run, same⟩ := bind_ok.1 h
      obtain ⟨rfl, rfl⟩ := pure_ok.1 same
      exact .inr ⟨a, rfl, run, fun t member same => other (head.2 ⟨t, member, same⟩)⟩
  · rintro (⟨rfl, rfl, stopped⟩ | ⟨a, rfl, run, other⟩)
    · exact ⟨_, _, ⟨rfl, rfl⟩, by rw [if_pos (head.2 stopped)]; exact pure_ok.2 ⟨rfl, rfl⟩⟩
    · have go : ¬ ts.head?.any (·.kind = stop) = true := fun h =>
        let ⟨t, member, same⟩ := head.1 h
        other t member same
      exact ⟨_, _, ⟨rfl, rfl⟩, by rw [if_neg go]; exact bind_ok.2 ⟨a, rest, run, pure_ok.2 ⟨rfl, rfl⟩⟩⟩

section Sequence

variable {item : Parse α} {stop : TokenKind → Bool} {bound : Nat} {t : Token} {tail : List Token}

theorem sequence_stopped (stopped : ∀ t ∈ ts.head?, stop t.kind) :
    sequence item stop (bound + 1) ts = .ok ([], ts) := by
  cases ts with
  | nil => rfl
  | cons t tail =>
    have here : nextIs stop (t :: tail) = .ok (true, t :: tail) := by
      simp [nextIs, stopped t rfl]
    rw [sequence, bind_of_ok here]
    rfl

theorem sequence_semicolon (goesOn : ¬ stop t.kind) (semicolon : t.kind = .semicolon) :
    sequence item stop (bound + 1) (t :: tail) = sequence item stop bound tail := by
  have here : nextIs stop (t :: tail) = .ok (false, t :: tail) := by
    simpa [nextIs] using goesOn
  have skipped : skip .semicolon (t :: tail) = .ok (true, tail) :=
    skip_ok.2 (.inl ⟨rfl, t, rfl, semicolon⟩)
  rw [sequence, bind_of_ok here, if_neg Bool.false_ne_true, bind_of_ok skipped, if_pos rfl]

theorem sequence_item (goesOn : ¬ stop t.kind) (other : t.kind ≠ .semicolon) :
    sequence item stop (bound + 1) (t :: tail) =
      (item >>= fun first => (first :: ·) <$> sequence item stop bound) (t :: tail) := by
  have here : nextIs stop (t :: tail) = .ok (false, t :: tail) := by
    simpa [nextIs] using goesOn
  have kept : skip .semicolon (t :: tail) = .ok (false, t :: tail) :=
    skip_ok.2 (.inr ⟨rfl, rfl, by simpa using other⟩)
  have more : nextIs (fun _ => true) (t :: tail) = .ok (true, t :: tail) := rfl
  rw [sequence, bind_of_ok here, if_neg Bool.false_ne_true, bind_of_ok kept,
    if_neg Bool.false_ne_true, bind_of_ok more, if_pos rfl]
  simp only [map_eq_pure_bind]

end Sequence

/-! ## What a reader takes -/

/-- The spellings of all tokens are in the classes of their kinds. -/
def AllSpelt (ts : List Token) : Prop := ∀ t ∈ ts, t.isSpelt

@[simp] theorem allSpelt_nil : AllSpelt [] := fun _ h => absurd h List.not_mem_nil

@[simp] theorem allSpelt_cons {t : Token} : AllSpelt (t :: ts) ↔ t.isSpelt ∧ AllSpelt ts :=
  List.forall_mem_cons

@[simp] theorem allSpelt_append : AllSpelt (ts ++ rest) ↔ AllSpelt ts ∧ AllSpelt rest :=
  List.forall_mem_append

/-- A reader that succeeds takes tokens from the front, and `R` relates them to the result. -/
def Reads (p : Parse α) (R : α → List Token → Prop) : Prop :=
  ∀ ts a rest, AllSpelt ts → p ts = .ok (a, rest) → ∃ used, ts = used ++ rest ∧ R a used

theorem Reads.mono {p : Parse α} {R S : α → List Token → Prop} (reads : Reads p R)
    (imp : ∀ a used, R a used → S a used) : Reads p S := by
  intro ts a rest spelt run
  obtain ⟨used, same, related⟩ := reads ts a rest spelt run
  exact ⟨used, same, imp a used related⟩

/-- The tokens behind the first item of a list with commas: each comma and its item. -/
def CommaTail (R : α → List Token → Prop) : List (Token × α) → List Token → Prop
  | [], ts => ts = []
  | (comma, a) :: more, ts =>
    ∃ used tail, ts = comma :: (used ++ tail) ∧ comma.lexeme = .fixed .comma ∧ R a used ∧
      CommaTail R more tail

theorem CommaTail.mono {R S : α → List Token → Prop} {more : List (Token × α)}
    (tail : CommaTail R more ts) (imp : ∀ a used, R a used → used.length < ts.length → S a used) :
    CommaTail S more ts := by
  induction more generalizing ts with
  | nil => exact tail
  | cons next more ih =>
    obtain ⟨used, others, rfl, comma, related, further⟩ := tail
    have fits : used.length < (next.1 :: (used ++ others)).length := by
      simp only [List.length_cons, List.length_append]
      omega
    refine ⟨used, others, rfl, comma, imp _ _ related fits, ih further fun a taken related lt => ?_⟩
    apply imp a taken related
    simp only [List.length_cons, List.length_append]
    omega

/-- There is a comma for each item behind the first. -/
theorem CommaTail.length_le {R : α → List Token → Prop} {more : List (Token × α)}
    (tail : CommaTail R more ts) : more.length ≤ ts.length := by
  induction more generalizing ts with
  | nil => exact Nat.zero_le _
  | cons next more ih =>
    obtain ⟨used, others, rfl, -, -, further⟩ := tail
    have := ih further
    simp only [List.length_cons, List.length_append]
    omega

theorem commaList_reads {item : Parse α} {R : α → List Token → Prop} (reads : Reads item R)
    (bound : Nat) :
    Reads (commaList item bound) fun list ts =>
      ∃ used tail, ts = used ++ tail ∧ R list.1 used ∧ CommaTail R list.2 tail := by
  induction bound with
  | zero =>
    intro ts list rest spelt run
    obtain ⟨a, mid, runItem, same⟩ := bind_ok.1 run
    obtain ⟨rfl, rfl⟩ := pure_ok.1 same
    obtain ⟨used, rfl, related⟩ := reads _ _ _ spelt runItem
    exact ⟨used, rfl, used, [], by simp, related, rfl⟩
  | succ bound ih =>
    intro ts list rest spelt run
    obtain ⟨a, mid, runItem, runRest⟩ := bind_ok.1 run
    obtain ⟨used, rfl, related⟩ := reads _ _ _ spelt runItem
    obtain ⟨comma?, mid', runComma, runMore⟩ := bind_ok.1 runRest
    rcases take?_ok.1 runComma with ⟨_, comma, rfl, rfl, isComma⟩ | ⟨rfl, rfl, -⟩
    · obtain ⟨⟨b, more⟩, mid'', runList, same⟩ := bind_ok.1 runMore
      obtain ⟨rfl, rfl⟩ := pure_ok.1 same
      simp only [allSpelt_append, allSpelt_cons] at spelt
      obtain ⟨taken, rfl, second, tail, rfl, relatedSecond, relatedTail⟩ :=
        ih _ _ _ spelt.2.2 runList
      have lexeme : comma.lexeme = .fixed .comma :=
        Token.lexeme_fixed spelt.2.1 (by simpa using isComma) rfl
      refine ⟨used ++ comma :: (second ++ tail), by simp, used, _, rfl, related, ?_⟩
      exact ⟨second, tail, rfl, lexeme, relatedSecond, relatedTail⟩
    · obtain ⟨rfl, rfl⟩ := pure_ok.1 runMore
      exact ⟨used, rfl, used, [], by simp, related, rfl⟩

/-! ## What a reader finds -/

/-- The tokens of a sequence: its items, and semicolons anywhere between them. -/
inductive Items (R : α → List Token → Prop) : List α → List Token → Prop
  | nil : Items R [] []
  | semicolon {t : Token} {items : List α} {used : List Token} (isSemicolon : t.kind = .semicolon)
      (others : Items R items used) : Items R items (t :: used)
  | item {a : α} {items : List α} {used tail : List Token} (related : R a used)
      (others : Items R items tail) : Items R (a :: items) (used ++ tail)

theorem sequence_items {item : Parse α} {R : α → List Token → Prop} (reads : Reads item R)
    (stop : TokenKind → Bool) (bound : Nat) : Reads (sequence item stop bound) (Items R) := by
  induction bound with
  | zero =>
    intro ts items rest _ run
    obtain ⟨rfl, rfl⟩ := pure_ok.1 run
    exact ⟨[], rfl, .nil⟩
  | succ bound ih =>
    intro ts items rest spelt run
    have stopped (stops : ∀ t ∈ ts.head?, stop t.kind) :
        ∃ used, ts = used ++ rest ∧ Items R items used := by
      rw [sequence_stopped stops] at run
      cases run
      exact ⟨[], rfl, .nil⟩
    cases ts with
    | nil => exact stopped (by simp)
    | cons t tail =>
      by_cases stops : stop t.kind
      · exact stopped (by simpa using stops)
      by_cases semicolon : t.kind = .semicolon
      · rw [sequence_semicolon stops semicolon] at run
        obtain ⟨used, rfl, others⟩ := ih _ _ _ (allSpelt_cons.1 spelt).2 run
        exact ⟨t :: used, rfl, .semicolon semicolon others⟩
      · rw [sequence_item stops semicolon] at run
        obtain ⟨first, mid, runItem, runRest⟩ := bind_ok.1 run
        obtain ⟨others, runOthers, rfl⟩ := map_ok.1 runRest
        obtain ⟨used, same, related⟩ := reads _ _ _ spelt runItem
        rw [same] at spelt ⊢
        obtain ⟨more, rfl, further⟩ := ih _ _ _ (allSpelt_append.1 spelt).2 runOthers
        exact ⟨used ++ more, by simp, .item related further⟩

/-- A reader takes all tokens that `R` relates to something, provided that it accepts what
follows them, and returns that thing; `unplaced` takes out the places, which may differ. -/
def Completes (p : Parse α) (R : α → List Token → Prop) (unplaced : α → α)
    (follow : TokenKind → Prop) : Prop :=
  ∀ a used rest, R a used → (∀ t ∈ rest.head?, follow t.kind) →
    ∃ b, p (used ++ rest) = .ok (b, rest) ∧ unplaced b = unplaced a

theorem commaList_completes {item : Parse α} {R : α → List Token → Prop} {unplaced : α → α}
    (completes : Completes item R unplaced fun kind => kind = .comma ∨ kind = .closeParen)
    {bound : Nat} {first : α} {more : List (Token × α)} {used tail : List Token}
    (related : R first used) (commas : CommaTail R more tail) (fits : more.length ≤ bound)
    (closed : ∀ t ∈ rest.head?, t.kind = .closeParen) :
    ∃ a others, commaList item bound (used ++ (tail ++ rest)) = .ok ((a, others), rest) ∧
      unplaced a = unplaced first ∧
      others.map (fun next => (next.1, unplaced next.2)) =
        more.map fun next => (next.1, unplaced next.2) := by
  induction bound generalizing first more used tail with
  | zero =>
    obtain rfl := List.length_eq_zero_iff.1 (Nat.le_zero.1 fits)
    obtain rfl := commas
    obtain ⟨a, run, same⟩ := completes _ _ _ related fun t member => .inr (closed t member)
    exact ⟨a, [], bind_ok.2 ⟨a, rest, run, pure_ok.2 ⟨rfl, rfl⟩⟩, same, rfl⟩
  | succ bound ih =>
    cases more with
    | nil =>
      obtain rfl := commas
      obtain ⟨a, run, same⟩ := completes _ _ _ related fun t member => .inr (closed t member)
      refine ⟨a, [], bind_ok.2 ⟨a, rest, run, bind_ok.2 ⟨none, rest, ?_, ?_⟩⟩, same, rfl⟩
      · refine take?_ok.2 (.inr ⟨rfl, rfl, fun t member => ?_⟩)
        simp [closed t member]
      · exact pure_ok.2 ⟨rfl, rfl⟩
    | cons next more =>
      obtain ⟨comma, second⟩ := next
      obtain ⟨secondUsed, tail, rfl, isComma, relatedSecond, further⟩ := commas
      have kind : comma.kind = .comma := congrArg Lexeme.kind isComma
      obtain ⟨a, run, same⟩ := completes first used
        (comma :: (secondUsed ++ (tail ++ rest))) related (by simp [kind])
      obtain ⟨b, others, runMore, sameSecond, sameMore⟩ :=
        ih relatedSecond further (Nat.le_of_succ_le_succ fits)
      refine ⟨a, (comma, b) :: others, ?_, same, by simp [sameSecond, sameMore]⟩
      rw [List.cons_append, List.append_assoc]
      refine bind_ok.2 ⟨a, _, run, ?_⟩
      refine bind_ok.2 ⟨some ((), comma), secondUsed ++ (tail ++ rest), ?_, ?_⟩
      · exact take?_ok.2 (.inl ⟨(), comma, rfl, rfl, by simp [kind]⟩)
      · exact bind_ok.2 ⟨(b, others), rest, runMore, pure_ok.2 ⟨rfl, rfl⟩⟩

end Grammar

end ProcCheck
