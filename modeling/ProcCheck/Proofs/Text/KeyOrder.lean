import Mathlib.Data.List.Perm.Basic
import ProcCheck.Text.KeyOrder

/-!
# The order of keys

Things in the order of their keys are the same things: those whose keys are indices come first, in
ascending order, and the others follow as they stood. So where a key is an index, the least index
comes first of all, wherever it stood.
-/

namespace ProcCheck.Text

variable {α : Type}

/-- The things whose keys are indices, in the order of the indices. -/
def indexed (key : α → Text) (things : List α) : List α :=
  ((things.filterMap fun x => (index? (key x)).map (·, x)).mergeSort fun a b => a.1 ≤ b.1).map (·.2)

variable {key : α → Text} {things : List α}

theorem inKeyOrder_eq : inKeyOrder key things =
    indexed key things ++ things.filter fun x => !(index? (key x)).isSome := by
  simp only [inKeyOrder, indexed, Option.not_isSome]

theorem indexed_perm :
    (indexed key things).Perm (things.filter fun x => (index? (key x)).isSome) := by
  apply (List.Perm.map Prod.snd (List.mergeSort_perm _ _)).trans
  rw [List.map_filterMap]
  induction things with
  | nil => exact .nil
  | cons x things ih =>
    cases index : index? (key x) with
    | none => simpa [index] using ih
    | some n => simpa [index] using ih

theorem inKeyOrder_perm : (inKeyOrder key things).Perm things := by
  rw [inKeyOrder_eq]
  exact (indexed_perm.append_right _).trans (List.filter_append_perm _ things)

theorem mem_inKeyOrder {x : α} : x ∈ inKeyOrder key things ↔ x ∈ things :=
  inKeyOrder_perm.mem_iff

/-- Things without indices stay as they stand. -/
theorem inKeyOrder_plain (plain : ∀ x ∈ things, index? (key x) = none) :
    inKeyOrder key things = things := by
  have empty : indexed key things = [] := by
    apply List.Perm.eq_nil
    apply indexed_perm.trans
    rw [List.filter_eq_nil_iff.2 fun x member => by simp [plain x member]]
  rw [inKeyOrder_eq, empty, List.nil_append]
  exact List.filter_eq_self.2 fun x member => by simp [plain x member]

/-- The indices are in ascending order. -/
theorem indexed_pairwise (key : α → Text) (things : List α) : (indexed key things).Pairwise
    fun x y => ∀ m n, index? (key x) = some m → index? (key y) = some n → m ≤ n := by
  unfold indexed
  have known : ∀ a ∈ things.filterMap (fun x => (index? (key x)).map (·, x)),
      index? (key a.2) = some a.1 := by
    intro a member
    obtain ⟨x, -, found⟩ := List.mem_filterMap.1 member
    obtain ⟨n, index, rfl⟩ := Option.map_eq_some_iff.1 found
    exact index
  generalize things.filterMap (fun x => (index? (key x)).map (·, x)) = pairs at known
  have sorted : (pairs.mergeSort fun a b => a.1 ≤ b.1).Pairwise
      fun a b => decide (a.1 ≤ b.1) = true := by
    apply List.pairwise_mergeSort
    · intro a b c first second
      simp only [decide_eq_true_eq] at first second ⊢
      omega
    · intro a b
      simp only [Bool.or_eq_true, decide_eq_true_eq]
      omega
  apply List.pairwise_map.2
  apply sorted.imp_of_mem
  intro a b first second ascending m n isFirst isSecond
  rw [known a (List.mem_mergeSort.1 first), Option.some_inj] at isFirst
  rw [known b (List.mem_mergeSort.1 second), Option.some_inj] at isSecond
  rw [← isFirst, ← isSecond]
  exact of_decide_eq_true ascending

/-- A key is told by its index. -/
theorem eq_of_index? {k k' : Text} {n : Nat} (index : index? k = some n)
    (index' : index? k' = some n) : k = k' := by
  have canonical : ∀ {k : Text}, index? k = some n → Text.ofNat n = k := by
    intro k index
    simp only [index?] at index
    split at index
    next isIndex =>
      rw [← Option.some.inj index]
      exact isIndex.1
    · cases index
  exact (canonical index).symm.trans (canonical index')

/-- The thing with the least index comes first. -/
theorem inKeyOrder_least {x : α} {n : Nat} (member : x ∈ things) (index : index? (key x) = some n)
    (least : ∀ y ∈ things, ∀ m, index? (key y) = some m → n ≤ m) :
    ∃ first rest, inKeyOrder key things = first :: rest ∧ key first = key x := by
  have listed : x ∈ indexed key things :=
    indexed_perm.mem_iff.2 (List.mem_filter.2 ⟨member, by simp [index]⟩)
  cases all : indexed key things with
  | nil =>
    rw [all] at listed
    cases listed
  | cons first rest =>
    have isIndexed : first ∈ indexed key things := by simp [all]
    obtain ⟨isThing, some⟩ := List.mem_filter.1 (indexed_perm.mem_iff.1 isIndexed)
    obtain ⟨m, firstIndex⟩ := Option.isSome_iff_exists.1 some
    have notAbove : m ≤ n := by
      rw [all] at listed
      rcases List.mem_cons.1 listed with rfl | later
      · rw [firstIndex, Option.some_inj] at index
        omega
      · have ascending := indexed_pairwise key things
        rw [all] at ascending
        exact (List.pairwise_cons.1 ascending).1 x later m n firstIndex index
    have notBelow : n ≤ m := least first isThing m firstIndex
    obtain rfl : m = n := by omega
    refine ⟨first, rest ++ things.filter fun x => !(index? (key x)).isSome, ?_,
      eq_of_index? firstIndex index⟩
    rw [inKeyOrder_eq, all, List.cons_append]

end ProcCheck.Text
