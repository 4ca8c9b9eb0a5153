import Mathlib.Data.Finmap
import Mathlib.Data.List.Lex
import Mathlib.Data.List.Sort
import Mathlib.Data.String.Basic

namespace CfOperator

/-- A Go `map[string]V`. Two maps are equal when they hold the same entries, whatever the
order in which they were inserted. -/
abbrev StringMap (V : Type) := Finmap (fun _ : String => V)

/-- The order in which one Go `range` statement visits the keys of a map. The runtime picks
it afresh for every loop; all a program may rely on is that each key comes exactly once. -/
structure RangeOrder where
  keys : Finset String → List String
  keys_perm : ∀ s, (keys s : Multiset String) = s.val

namespace RangeOrder

theorem mem_keys (o : RangeOrder) {s : Finset String} {k : String} : k ∈ o.keys s ↔ k ∈ s := by
  rw [← Multiset.mem_coe, o.keys_perm]
  rfl

theorem nodup_keys (o : RangeOrder) (s : Finset String) : (o.keys s).Nodup := by
  rw [← Multiset.coe_nodup, o.keys_perm]
  exact s.nodup

theorem keys_empty (o : RangeOrder) : o.keys ∅ = [] :=
  (Multiset.coe_eq_zero _).mp (o.keys_perm ∅)

def CharsLE (a b : String) : Prop := a.data ≤ b.data

instance : DecidableRel CharsLE := fun a b => inferInstanceAs (Decidable (a.data ≤ b.data))

instance : IsTotal String CharsLE := ⟨fun a b => le_total a.data b.data⟩

instance : IsTrans String CharsLE := ⟨fun _ _ _ (h : _ ≤ _) h' => le_trans h h'⟩

instance : IsAntisymm String CharsLE := ⟨fun _ _ (h : _ ≤ _) h' => String.ext (le_antisymm h h')⟩

def ascending : RangeOrder where
  keys s := Quotient.liftOn s.val (List.insertionSort CharsLE) fun a b h =>
    List.eq_of_perm_of_sorted
      ((List.perm_insertionSort _ a).trans (h.trans (List.perm_insertionSort _ b).symm))
      (List.sorted_insertionSort _ a) (List.sorted_insertionSort _ b)
  keys_perm s := by
    rcases s with ⟨v, _⟩
    induction v using Quotient.inductionOn
    exact Multiset.coe_eq_coe.mpr (List.perm_insertionSort _ _)

end RangeOrder

end CfOperator
