import Mathlib.Data.List.Basic
import Mathlib.Data.Nat.Notation

/-!
# Places in filtered lists

The place of an element in a filtered list is its rank, the number of elements before
it that pass the filter. Ranks compose as the filters do. The place of an element can
be found again by a loop over the whole list that keeps the last match, if no later
element matches.
-/

namespace Rank

variable {α : Type*} {p q : α → Bool} {l : List α} {a : α} {i k : ℕ}

def rank (p : α → Bool) (l : List α) (i : ℕ) : ℕ := (l.take i).countP p

theorem filter_append_drop (p : α → Bool) (l : List α) (i : ℕ) :
    (l.take i).filter p ++ (l.drop i).filter p = l.filter p := by
  rw [← List.filter_append, List.take_append_drop]

theorem length_filter_take (p : α → Bool) (l : List α) (i : ℕ) :
    ((l.take i).filter p).length = rank p l i :=
  List.countP_eq_length_filter.symm

theorem take_rank_filter (p : α → Bool) (l : List α) (i : ℕ) :
    (l.filter p).take (rank p l i) = (l.take i).filter p := by
  rw [← filter_append_drop p l i]
  exact List.take_left' (length_filter_take p l i)

/-- A rank among the elements that pass `p` is one for both filters. -/
theorem rank_filter (p q : α → Bool) (l : List α) (i : ℕ) :
    rank q (l.filter p) (rank p l i) = rank (fun a => q a && p a) l i := by
  rw [rank, take_rank_filter, List.countP_filter, rank]

theorem getElem?_filter_rank (hi : l[i]? = some a) (ha : p a = true) :
    (l.filter p)[rank p l i]? = some a := by
  have hdrop : l.drop i = a :: l.drop (i + 1) := by
    obtain ⟨hlt, rfl⟩ := List.getElem?_eq_some_iff.mp hi
    exact List.drop_eq_getElem_cons hlt
  rw [← filter_append_drop p l i, ← length_filter_take, List.getElem?_append_right (Nat.le_refl _),
    Nat.sub_self, hdrop, List.filter_cons_of_pos ha]
  rfl

theorem exists_of_getElem?_filter (h : (l.filter p)[k]? = some a) :
    ∃ i, l[i]? = some a ∧ p a = true ∧ rank p l i = k := by
  induction l generalizing k with
  | nil => cases h
  | cons b l ih =>
    cases hb : p b with
    | false =>
      rw [List.filter_cons_of_neg (by simp [hb])] at h
      obtain ⟨i, hi, ha, hrank⟩ := ih h
      exact ⟨i + 1, hi, ha, by simpa [rank, hb] using hrank⟩
    | true =>
      rw [List.filter_cons_of_pos hb] at h
      cases k with
      | zero =>
        obtain rfl := Option.some.inj h
        exact ⟨0, rfl, hb, rfl⟩
      | succ k =>
        obtain ⟨i, hi, ha, hrank⟩ := ih h
        exact ⟨i + 1, hi, ha, by simpa [rank, hb] using hrank⟩

/-! ### Filters that do not look at the places -/

section MapIdx

variable {β γ : Type*} {f : ℕ → α → β} {p' : β → Bool}

theorem rank_mapIdx (hp : ∀ i a, p' (f i a) = p a) (l : List α) (i : ℕ) :
    rank p' (l.mapIdx f) i = rank p l i := by
  induction l generalizing f i with
  | nil => simp [rank]
  | cons a l ih =>
    cases i with
    | zero => rfl
    | succ i =>
      have hrest := ih (f := fun i => f (i + 1)) (fun i a => hp (i + 1) a) i
      simp only [rank] at hrest
      simp only [rank, List.mapIdx_cons, List.take_succ_cons, List.countP_cons, hp, hrest]

theorem map_filter_mapIdx {g : β → γ} {g' : α → γ} (hp : ∀ i a, p' (f i a) = p a)
    (hg : ∀ i a, p a = true → g (f i a) = g' a) (l : List α) :
    ((l.mapIdx f).filter p').map g = (l.filter p).map g' := by
  induction l generalizing f with
  | nil => rfl
  | cons a l ih =>
    have hrest := ih (f := fun i => f (i + 1)) (fun i a => hp (i + 1) a)
      (fun i a => hg (i + 1) a)
    rw [List.mapIdx_cons]
    cases ha : p a with
    | false =>
      rw [List.filter_cons_of_neg (by simp [hp, ha]), List.filter_cons_of_neg (by simp [ha])]
      exact hrest
    | true =>
      rw [List.filter_cons_of_pos (by simp [hp, ha]), List.filter_cons_of_pos ha, List.map_cons,
        List.map_cons, hg 0 a ha, hrest]

end MapIdx

/-! ### The last match -/

def lastIndex (q : α → Bool) (l : List α) : Option ℕ :=
  l.zipIdx.foldl (fun found x => if q x.1 then some x.2 else found) none

theorem foldl_of_no_match (n : ℕ) (found : Option ℕ) (h : ∀ b ∈ l, q b = false) :
    (l.zipIdx n).foldl (fun found x => if q x.1 then some x.2 else found) found = found := by
  induction l generalizing n found with
  | nil => rfl
  | cons b l ih =>
    obtain ⟨hb, hl⟩ := List.forall_mem_cons.mp h
    simp only [List.zipIdx_cons, List.foldl_cons, hb]
    exact ih (n + 1) found hl

theorem lastIndex_eq_some (hi : l[i]? = some a) (ha : q a = true)
    (hlater : ∀ b ∈ l.drop (i + 1), q b = false) : lastIndex q l = some i := by
  obtain ⟨hlt, rfl⟩ := List.getElem?_eq_some_iff.mp hi
  have hsplit : l = l.take i ++ l[i] :: l.drop (i + 1) := by
    rw [← List.drop_eq_getElem_cons hlt, List.take_append_drop]
  have hlength : (l.take i).length = i := List.length_take_of_le (Nat.le_of_lt hlt)
  unfold lastIndex
  rw [hsplit, List.zipIdx_append, List.foldl_append, List.zipIdx_cons, List.foldl_cons]
  rw [foldl_of_no_match _ _ hlater]
  simp [ha, hlength]

end Rank
