import Mathlib.Data.List.Sort

/-!
# Stable sorting by a key

`List.mergeSort` is stable: elements with the same key keep their order. A list that is
sorted by a key is determined by its groups of equal keys, so taking elements out of a
list and sorting it can be done in either order.

* `StableSort.filter_key_mergeSort`: each group of equal keys is left as it is.
* `StableSort.eq_of_groups_eq`: a sorted list is determined by its groups.
* `StableSort.filter_mergeSort`: taking out and sorting commute.
* `StableSort.sublist_mergeSort_mergeSort`: a sublist stays one when both lists are sorted.
-/

namespace DeprecatedApi

namespace StableSort

variable {α β : Type} [LinearOrder β] {key : α → β} {le : α → α → Bool}

theorem trans_of_key (hle : ∀ a b, le a b ↔ key a ≤ key b) (a b c : α) (hab : le a b)
    (hbc : le b c) : le a c := by
  rw [hle] at hab hbc ⊢
  exact hab.trans hbc

theorem total_of_key (hle : ∀ a b, le a b ↔ key a ≤ key b) (a b : α) : le a b || le b a := by
  rw [Bool.or_eq_true, hle, hle]
  exact le_total (key a) (key b)

/-- The sorted list is in the order of the keys. -/
theorem pairwise_key_mergeSort (hle : ∀ a b, le a b ↔ key a ≤ key b) (l : List α) :
    (l.mergeSort le).Pairwise fun a b => key a ≤ key b :=
  (List.pairwise_mergeSort (trans_of_key hle) (total_of_key hle) l).imp fun h => (hle _ _).mp h

/-- **Stability**: the elements with a given key keep their order. -/
theorem filter_key_mergeSort (hle : ∀ a b, le a b ↔ key a ≤ key b) (l : List α) (k : β) :
    (l.mergeSort le).filter (fun a => key a = k) = l.filter fun a => key a = k := by
  have hgroup : (l.filter fun a => key a = k).Pairwise fun a b => le a b := by
    refine List.pairwise_of_forall_mem_list fun a ha b hb => ?_
    have hka : key a = k := of_decide_eq_true (List.mem_filter.mp ha).2
    have hkb : key b = k := of_decide_eq_true (List.mem_filter.mp hb).2
    rw [hle, hka, hkb]
  -- the group is a sublist of the sorted list, and as long as the group there
  have hsub : (l.filter fun a => key a = k).Sublist (l.mergeSort le) :=
    List.sublist_mergeSort (trans_of_key hle) (total_of_key hle) hgroup List.filter_sublist
  have hsub' := hsub.filter fun a => key a = k
  rw [List.filter_filter] at hsub'
  simp only [Bool.and_self] at hsub'
  have hlength := ((List.mergeSort_perm l le).filter fun a => key a = k).length_eq
  exact (hsub'.eq_of_length hlength.symm).symm

/-- The first element of a sorted list has the least of the keys that occur. -/
theorem key_head_le {x y : α} {xs ys : List α} (hy : ∀ b ∈ ys, key y ≤ key b)
    (h : (x :: xs).filter (fun a => key a = key x) = (y :: ys).filter fun a => key a = key x) :
    key y ≤ key x := by
  have hmem : x ∈ (x :: xs).filter fun a => key a = key x := by simp
  rw [h] at hmem
  rcases List.mem_cons.mp (List.mem_filter.mp hmem).1 with rfl | hin
  · exact le_refl _
  · exact hy x hin

/-- A sorted list is determined by its groups of equal keys. -/
theorem eq_of_groups_eq {xs ys : List α} (hx : xs.Pairwise fun a b => key a ≤ key b)
    (hy : ys.Pairwise fun a b => key a ≤ key b)
    (h : ∀ k, xs.filter (fun a => key a = k) = ys.filter fun a => key a = k) : xs = ys := by
  induction xs generalizing ys with
  | nil =>
    cases ys with
    | nil => rfl
    | cons y ys => simpa using h (key y)
  | cons x xs ih =>
    cases ys with
    | nil => simpa using h (key x)
    | cons y ys =>
      rw [List.pairwise_cons] at hx hy
      -- both lists begin with their least key, and so with the first of the same group
      have hkey : key y = key x :=
        le_antisymm (key_head_le hy.1 (h (key x))) (key_head_le hx.1 (h (key y)).symm)
      have hhead : x = y := by
        have hfirst := h (key x)
        rw [List.filter_cons_of_pos (by simp), List.filter_cons_of_pos (by simp [hkey])] at hfirst
        exact (List.cons.inj hfirst).1
      subst hhead
      have htail : ∀ k, xs.filter (fun a => key a = k) = ys.filter fun a => key a = k := by
        intro k
        have hk := h k
        by_cases hxk : key x = k
        · rw [List.filter_cons_of_pos (by simp [hxk]), List.filter_cons_of_pos (by simp [hxk])] at hk
          exact (List.cons.inj hk).2
        · rwa [List.filter_cons_of_neg (by simp [hxk]),
            List.filter_cons_of_neg (by simp [hxk])] at hk
      rw [ih hx.2 hy.2 htail]

/-- Taking elements out of a list and sorting it can be done in either order. -/
theorem filter_mergeSort (hle : ∀ a b, le a b ↔ key a ≤ key b) (l : List α) (p : α → Bool) :
    (l.mergeSort le).filter p = (l.filter p).mergeSort le := by
  have hsorted := (pairwise_key_mergeSort hle l).sublist (List.filter_sublist (p := p))
  refine eq_of_groups_eq hsorted (pairwise_key_mergeSort hle _) fun k => ?_
  rw [filter_key_mergeSort hle, List.filter_comm, filter_key_mergeSort hle, List.filter_comm]

/-- The elements of a sublist can be marked in the list. -/
theorem exists_marked_of_sublist {l l' : List α} (h : l.Sublist l') :
    ∃ marked : List (α × Bool), marked.map Prod.fst = l' ∧
      (marked.filter Prod.snd).map Prod.fst = l := by
  induction h with
  | slnil => exact ⟨[], rfl, rfl⟩
  | @cons l l' a _ ih =>
    obtain ⟨marked, rfl, rfl⟩ := ih
    exact ⟨(a, false) :: marked, rfl, rfl⟩
  | @cons_cons l l' a _ ih =>
    obtain ⟨marked, rfl, rfl⟩ := ih
    exact ⟨(a, true) :: marked, rfl, rfl⟩

/-- A sublist stays one when both lists are sorted. -/
theorem sublist_mergeSort_mergeSort (hle : ∀ a b, le a b ↔ key a ≤ key b) {l l' : List α}
    (h : l.Sublist l') : (l.mergeSort le).Sublist (l'.mergeSort le) := by
  -- equal elements can be told apart by their marks, and then the sublist is a filtered list
  obtain ⟨marked, rfl, rfl⟩ := exists_marked_of_sublist h
  have hmarks : ∀ items : List (α × Bool), (items.map Prod.fst).mergeSort le
      = (items.mergeSort fun a b => le a.1 b.1).map Prod.fst := by
    intro items
    rw [List.map_mergeSort]
    exact fun _ _ _ _ => rfl
  have hfilter := filter_mergeSort (fun a b : α × Bool => hle a.1 b.1) marked Prod.snd
  rw [hmarks, hmarks, ← hfilter]
  exact List.filter_sublist.map Prod.fst

end StableSort

end DeprecatedApi
