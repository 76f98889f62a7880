import ProcCheck.Number.Notation
import ProcCheck.Proofs.Report.Unstyled
import ProcCheck.Text.Quoted

/-!
# Plain texts

A text without escapes has no control sequences. Numbers and quoted texts are plain, and so is what
is put together from plain texts or cut out of one.
-/

namespace ProcCheck

namespace Text

variable {t separator : Text} {ts : List Text}

theorem isPlain_join (plain : IsPlain separator) (each : ∀ t ∈ ts, IsPlain t) :
    IsPlain (join separator ts) := by
  induction ts with
  | nil => exact isPlain_nil
  | cons t ts ih =>
    obtain ⟨first, later⟩ := List.forall_mem_cons.1 each
    unfold join at ih ⊢
    cases ts with
    | nil => simpa using first
    | cons t' ts =>
      rw [List.intercalate_cons_cons, isPlain_append, isPlain_append]
      exact ⟨⟨first, plain⟩, ih later⟩

theorem isPlain_ofNat (n : Nat) : IsPlain (ofNat n) := not_mem_ofNat (by decide) n

theorem isPlain_ofInt (n : Int) : IsPlain (ofInt n) := not_mem_ofInt (by decide) (by decide) n

theorem isPlain_repeated {u : CodeUnit} (plain : u ≠ 0x1B) (n : Nat) : IsPlain (repeated u n) :=
  not_mem_repeated plain.symm n

theorem isPlain_spaces (n : Nat) : IsPlain (spaces n) := isPlain_repeated (by decide) n

theorem IsPlain.of_subset (plain : IsPlain t) {t' : Text} (part : t' ⊆ t) : IsPlain t' :=
  fun member => plain (part member)

theorem subset_join (separator : Text) (member : t ∈ ts) : t ⊆ join separator ts := by
  unfold join
  induction ts with
  | nil => cases member
  | cons t' ts ih =>
    cases ts with
    | nil =>
      rw [List.mem_singleton.1 member, List.intercalate_singleton]
      exact List.Subset.refl _
    | cons t'' ts =>
      rw [List.intercalate_cons_cons]
      rcases List.mem_cons.1 member with rfl | later
      · rw [List.append_assoc]
        exact List.subset_append_left ..
      · exact List.subset_append_of_subset_right _ (ih later)

theorem subset_of_mem_lines {line : Text} (member : line ∈ t.lines) : line ⊆ t := by
  have whole : join [.lineFeed] t.lines = t := List.intercalate_splitOn _
  exact whole ▸ subset_join [.lineFeed] member

theorem isPlain_hex4 (u : CodeUnit) : IsPlain (hex4 u) := by
  have digit (n : Nat) : CodeUnit.ofChar (Nat.digitChar (n % 16)) ≠ 0x1B := by
    have all : ∀ n < 16, CodeUnit.ofChar (Nat.digitChar n) ≠ 0x1B := by decide
    exact all _ (Nat.mod_lt _ (by decide))
  simp [hex4, digit, isPlain_nil]

theorem isPlain_escape (u : CodeUnit) : IsPlain (escape u) := by
  unfold escape
  cases letter : escapeLetter? u with
  | some v =>
    have letters : [(CodeUnit.quote, CodeUnit.quote), (0x5C, 0x5C), (0x08, CodeUnit.ofChar 'b'),
        (0x0C, CodeUnit.ofChar 'f'), (0x0A, CodeUnit.ofChar 'n'), (0x0D, CodeUnit.ofChar 'r'),
        (0x09, CodeUnit.ofChar 't')].all (·.2 ≠ 0x1B) = true := by decide
    obtain ⟨before, behind, table, -⟩ := List.lookup_eq_some_iff.1 letter
    have plain : v ≠ 0x1B := of_decide_eq_true (List.all_eq_true.1 letters (u, v) (by simp [table]))
    simp [plain, isPlain_nil]
  | none =>
    simp only
    split
    · simp [isPlain_hex4, show CodeUnit.ofChar 'u' ≠ 0x1B by decide]
    next high =>
      have other : u ≠ 0x1B := by
        rintro rfl
        exact high (by decide)
      simp [other, isPlain_nil]

/-- Between quotes all escapes are written with a backslash. -/
theorem isPlain_quoted (t : Text) : IsPlain t.quoted := by
  have inner : IsPlain (escaped t) := by
    induction t using escaped.induct with
    | case1 => exact isPlain_nil
    | case2 u => exact isPlain_escape u
    | case3 u v rest pair ih =>
      rw [escaped, if_pos pair, isPlain_cons, isPlain_cons]
      rw [Bool.and_eq_true] at pair
      refine ⟨?_, ?_, ih⟩
      · rintro rfl
        exact absurd pair.1 (by decide)
      · rintro rfl
        exact absurd pair.2 (by decide)
    | case4 u v rest pair ih =>
      rw [escaped, if_neg pair, isPlain_append]
      exact ⟨isPlain_escape u, ih⟩
  simp [quoted, inner, show CodeUnit.quote ≠ 0x1B by decide, isPlain_nil]

end Text

open Text

theorem Number.isPlain_positional {ds : Text} (plain : IsPlain ds) (point : Int) :
    IsPlain (positional ds point) := by
  have zeros (n : Nat) : IsPlain (repeated (CodeUnit.ofChar '0') n) :=
    isPlain_repeated (by decide) n
  have start (n : Nat) : IsPlain (ds.take n) := plain.of_subset (List.take_subset ..)
  have rest (n : Nat) : IsPlain (ds.drop n) := plain.of_subset (List.drop_subset ..)
  unfold positional
  split
  · simp +decide [zeros, plain]
  · split <;> simp +decide [zeros, plain, start, rest]

theorem Number.isPlain_scientific {ds : Text} (plain : IsPlain ds) (exponent : Int) :
    IsPlain (scientific ds exponent) := by
  have start (n : Nat) : IsPlain (ds.take n) := plain.of_subset (List.take_subset ..)
  have rest : IsPlain ds.tail := plain.of_subset (List.tail_sublist ds).subset
  unfold scientific
  split <;> split <;> simp +decide [start, rest, isPlain_ofNat]

theorem Number.isPlain_text (x : Float) : IsPlain (Number.text x) := by
  have digits (s : Shortest) : IsPlain (shortestText s) := by
    unfold shortestText
    simp only
    split
    · exact isPlain_positional (isPlain_ofNat _) _
    · exact isPlain_scientific (isPlain_ofNat _) _
  have sign : IsPlain (if x.toBits < 0x8000000000000000 then [] else ofString "-") := by
    split
    · exact isPlain_nil
    · decide
  unfold Number.text
  split
  · simp only
    split
    · decide
    · exact isPlain_append.2 ⟨sign, by decide⟩
  · simp only
    split
    · decide
    · exact isPlain_append.2 ⟨sign, digits _⟩

end ProcCheck
