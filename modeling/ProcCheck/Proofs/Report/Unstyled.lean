import Mathlib.Data.List.Basic
import ProcCheck.Report.Style

/-!
# Texts without their control sequences

A control sequence goes on with a bracket, parameters and a letter, and every other unit ends it.
So control sequences on the two sides of such a unit are taken out of a text apart from each other.
-/

namespace ProcCheck

/-- The units of a control sequence behind its escape. -/
def CodeUnit.isInSequence (u : CodeUnit) : Bool := u == '[' || Text.isParameter u || u.isLetter

namespace Text

/-- The decimal digits of a number are digits. -/
theorem isDigit_of_mem_ofNat {u : CodeUnit} {n : Nat} (member : u ∈ ofNat n) :
    u.isDigit = true := by
  obtain ⟨c, digit, rfl⟩ := List.mem_map.1 member
  have isDigit := Nat.isDigit_of_mem_toDigits (by decide) (by decide) digit
  simp only [Char.isDigit, Bool.and_eq_true, decide_eq_true_eq] at isDigit
  have low : 48 ≤ c.toNat := UInt32.le_iff_toNat_le.1 isDigit.1
  have high : c.toNat ≤ 57 := UInt32.le_iff_toNat_le.1 isDigit.2
  have value : (CodeUnit.ofChar c).toNat = c.toNat := by
    simp only [CodeUnit.ofChar, Nat.toUInt16, UInt16.toNat_ofNat']
    omega
  have zero : (CodeUnit.ofChar '0').toNat = 48 := rfl
  have nine : (CodeUnit.ofChar '9').toNat = 57 := rfl
  simp only [CodeUnit.isDigit, Bool.and_eq_true, decide_eq_true_eq, UInt16.le_iff_toNat_le]
  omega

theorem not_mem_ofNat {u : CodeUnit} (other : u.isDigit = false) (n : Nat) : u ∉ ofNat n := by
  intro member
  rw [isDigit_of_mem_ofNat member] at other
  cases other

theorem not_mem_ofInt {u : CodeUnit} (other : u.isDigit = false) (noSign : u ≠ '-') (n : Int) :
    u ∉ ofInt n := by
  cases n with
  | ofNat n => exact not_mem_ofNat other n
  | negSucc n => exact List.not_mem_cons_of_ne_of_not_mem noSign (not_mem_ofNat other (n + 1))

theorem not_mem_repeated {u v : CodeUnit} (other : u ≠ v) (n : Nat) : u ∉ repeated v n :=
  fun member => other (List.eq_of_mem_replicate member)

/-! ## One control sequence -/

/-- No control sequence before a text goes on into it. -/
def IsApart (t : Text) : Prop := ∀ u ∈ t.head?, u.isInSequence = false

theorem isApart_nil : IsApart [] := nofun

theorem isApart_cons {u : CodeUnit} (other : u.isInSequence = false) (t : Text) :
    IsApart (u :: t) := by
  intro v head
  cases head
  exact other

variable {t rest : Text} {u : CodeUnit}

theorem IsApart.takeWhile (apart : IsApart rest) : rest.takeWhile isParameter = [] := by
  cases rest with
  | nil => rfl
  | cons v rest =>
    have other := apart v rfl
    refine List.takeWhile_cons_of_neg ?_
    simp only [CodeUnit.isInSequence, Bool.or_eq_false_iff] at other
    simp [other.1.2]

theorem IsApart.startsWith (apart : IsApart rest) : rest.startsWith '[' = false := by
  cases rest with
  | nil => rfl
  | cons v rest =>
    have other := apart v rfl
    simp only [CodeUnit.isInSequence, Bool.or_eq_false_iff] at other
    simpa [Text.startsWith] using other.1.1

/-- A control sequence at the start of a text does not depend on what stands apart behind it. -/
theorem sequenceTail?_append (apart : IsApart rest) (u : CodeUnit) (t : Text) :
    sequenceTail? u (t ++ rest) = sequenceTail? u t := by
  cases t with
  | nil =>
    rw [List.nil_append, sequenceTail?, sequenceTail?, apart.startsWith]
    simp [Text.startsWith]
  | cons v t =>
    have start : startsWith (v :: (t ++ rest)) '[' = startsWith (v :: t) '[' := rfl
    have parameters : ((t ++ rest).takeWhile isParameter).length =
        (t.takeWhile isParameter).length := by
      rw [List.takeWhile_append, apart.takeWhile]
      split <;> simp_all
    have within : (t.takeWhile isParameter).length ≤ t.length := (List.takeWhile_prefix _).length_le
    simp only [sequenceTail?, List.cons_append, start, List.drop_succ_cons, List.drop_zero,
      parameters, List.drop_append_of_le_length within, List.head?_append]
    split
    · cases last : (t.drop (t.takeWhile isParameter).length).head? with
      | some w => rfl
      | none =>
        cases behind : rest.head? with
        | none => rfl
        | some w =>
          -- The parameters reach the end of the first text, and no letter follows them.
          have other := apart w behind
          simp only [CodeUnit.isInSequence, Bool.or_eq_false_iff] at other
          simp [other.2]
    · rfl

/-- A control sequence at the start of a text ends in it. -/
theorem sequenceTail?_le {n : Nat} (found : sequenceTail? u t = some n) : n ≤ t.length := by
  unfold sequenceTail? at found
  split at found
  · simp only at found
    split at found
    next last within =>
      split at found
      · obtain ⟨behind, cut⟩ := List.head?_eq_some_iff.1 within
        have length := congrArg List.length cut
        rw [List.length_drop, List.length_cons] at length
        injection found
        omega
      · cases found
    next => cases found
  · cases found

theorem sequenceTail?_plain (plain : u ≠ 0x1B) (t : Text) : sequenceTail? u t = none := by
  rw [sequenceTail?, if_neg fun both => plain both.1]

theorem sequenceTail?_controlSequence (n : Nat) (rest : Text) :
    sequenceTail? 0x1B ('[' :: (ofNat n ++ ofString "m" ++ rest)) =
      some ((ofNat n).length + 2) := by
  have digits : ∀ u ∈ ofNat n, isParameter u = true := fun u member => by
    rw [isParameter, isDigit_of_mem_ofNat member, Bool.true_or]
  have letter : ofString "m" = [CodeUnit.ofChar 'm'] := rfl
  have parameters : (ofNat n ++ CodeUnit.ofChar 'm' :: rest).takeWhile isParameter = ofNat n := by
    rw [List.takeWhile_append_of_pos digits, List.takeWhile_cons_of_neg (by decide),
      List.append_nil]
  simp only [sequenceTail?, letter, List.append_assoc, List.singleton_append,
    List.drop_succ_cons, List.drop_zero, parameters, List.drop_left]
  rfl

/-! ## All control sequences -/

/-- A text without escapes. -/
def IsPlain (t : Text) : Prop := (0x1B : CodeUnit) ∉ t

instance (t : Text) : Decidable (IsPlain t) := inferInstanceAs (Decidable (¬ _))

theorem isPlain_nil : IsPlain [] := List.not_mem_nil

@[simp] theorem isPlain_cons : IsPlain (u :: t) ↔ u ≠ 0x1B ∧ IsPlain t := by
  simp [IsPlain, eq_comm]

@[simp] theorem isPlain_append : IsPlain (t ++ rest) ↔ IsPlain t ∧ IsPlain rest := by
  simp [IsPlain]

theorem unstyled_cons (plain : u ≠ 0x1B) (t : Text) : unstyled (u :: t) = u :: unstyled t := by
  rw [unstyled, sequenceTail?_plain plain]

/-- A text without escapes has no control sequences. -/
theorem unstyled_append_of_plain (plain : IsPlain t) (rest : Text) :
    unstyled (t ++ rest) = t ++ unstyled rest := by
  induction t with
  | nil => rfl
  | cons u t ih =>
    obtain ⟨other, plain⟩ := isPlain_cons.1 plain
    rw [List.cons_append, unstyled_cons other, ih plain, List.cons_append]

theorem unstyled_of_plain (plain : IsPlain t) : t.unstyled = t := by
  have whole := unstyled_append_of_plain plain []
  rwa [List.append_nil, unstyled, List.append_nil] at whole

theorem unstyled_controlSequence_append (n : Nat) (rest : Text) :
    unstyled (controlSequence n ++ rest) = unstyled rest := by
  have found := sequenceTail?_controlSequence n rest
  show unstyled (0x1B :: '[' :: (ofNat n ++ ofString "m" ++ rest)) = unstyled rest
  rw [unstyled, found]
  have cut : (ofNat n ++ ofString "m" ++ rest).drop ((ofNat n).length + 1) = rest :=
    List.drop_left' (by simp [ofString, CodeUnit.ofCodePoint])
  exact congrArg unstyled cut

theorem unstyled_controlSequences_append (ns : List Nat) (rest : Text) :
    unstyled (controlSequences ns ++ rest) = unstyled rest := by
  induction ns with
  | nil => rfl
  | cons n ns ih =>
    rw [controlSequences, List.flatMap_cons, List.append_assoc, unstyled_controlSequence_append]
    exact ih

theorem isApart_controlSequences_append (ns : List Nat) (apart : IsApart rest) :
    IsApart (controlSequences ns ++ rest) := by
  cases ns with
  | nil => exact apart
  | cons n ns => exact isApart_cons (by decide) _

/-- Control sequences are taken out of two texts apart from each other, if none goes on from the
first into the second. -/
theorem unstyled_append (apart : IsApart rest) (t : Text) :
    unstyled (t ++ rest) = unstyled t ++ unstyled rest := by
  induction t using unstyled.induct with
  | case1 =>
    rw [unstyled]
    rfl
  | case2 u t more found ih =>
    rw [List.cons_append, unstyled, sequenceTail?_append apart, unstyled, found]
    simp only
    rw [List.drop_append_of_le_length (sequenceTail?_le found), ih]
  | case3 u t none ih =>
    rw [List.cons_append, unstyled, sequenceTail?_append apart, unstyled, none]
    simp only
    rw [ih, List.cons_append]

/-- No control sequence goes over a line break. -/
theorem unstyled_join (ts : List Text) :
    unstyled (join [.lineFeed] ts) = join [.lineFeed] (ts.map unstyled) := by
  induction ts with
  | nil => rw [join, List.intercalate_nil, unstyled]; rfl
  | cons t ts ih =>
    cases ts with
    | nil => simp [join]
    | cons t' ts =>
      have behind : IsApart (CodeUnit.lineFeed :: join [.lineFeed] (t' :: ts)) :=
        isApart_cons (by decide) _
      rw [join] at ih behind ⊢
      rw [List.intercalate_cons_cons, List.append_assoc, List.singleton_append,
        unstyled_append behind, unstyled_cons (by decide), ih]
      simp [join]

end Text

end ProcCheck
