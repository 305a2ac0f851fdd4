import Mathlib.Data.List.Basic

/-!
# Split — the parts of a list between separators

What `List.splitOn` is used for here: the parts hold no separator, and there are as many of them as
there are separators, and one.
-/

namespace Split

variable {α : Type*} [DecidableEq α] {a : α} {xs : List α}

/-- The part in front of the first separator, and those of the rest. -/
theorem splitOn_of_mem (h : a ∈ xs) :
    ∃ before after, xs = before ++ a :: after ∧ a ∉ before ∧
      xs.splitOn a = before :: after.splitOn a := by
  obtain ⟨before, after, rfl, hbefore⟩ := List.eq_append_cons_of_mem h
  exact ⟨before, after, rfl, hbefore, List.splitOn_append_cons_self_of_not_mem hbefore after⟩

theorem not_mem_of_mem_splitOn {part : List α} (h : part ∈ xs.splitOn a) : a ∉ part := by
  induction hn : xs.length using Nat.strongRecOn generalizing xs with
  | ind n ih =>
    by_cases hmem : a ∈ xs
    · obtain ⟨before, after, rfl, hbefore, hsplit⟩ := splitOn_of_mem hmem
      rw [hsplit] at h
      rcases List.mem_cons.mp h with rfl | hafter
      · exact hbefore
      · refine ih after.length ?_ hafter rfl
        rw [← hn, List.length_append, List.length_cons]
        omega
    · rw [List.splitOn_eq_singleton hmem, List.mem_singleton] at h
      rw [h]
      exact hmem

/-- With a separator there are two parts at least. -/
theorem exists_splitOn_of_mem (h : a ∈ xs) :
    ∃ first second rest, xs.splitOn a = first :: second :: rest := by
  obtain ⟨before, after, -, -, hsplit⟩ := splitOn_of_mem h
  cases hafter : after.splitOn a with
  | nil => exact absurd hafter (List.splitOn_ne_nil a after)
  | cons second rest => exact ⟨before, second, rest, by rw [hsplit, hafter]⟩

/-- Where the separator is written as a separator, and nothing else holds one, a list splits after
it is written as it does before. -/
theorem splitOn_flatMap {β : Type*} [DecidableEq β] {b : β} {write : α → List β}
    (hseparator : write a = [b]) (hother : ∀ c ∈ xs, c ≠ a → b ∉ write c) :
    (xs.flatMap write).splitOn b = (xs.splitOn a).map (List.flatMap write) := by
  have hnotMem : ∀ part : List α, part ⊆ xs → a ∉ part → b ∉ part.flatMap write := by
    intro part hsub hpart hmem
    obtain ⟨c, hc, hb⟩ := List.mem_flatMap.mp hmem
    exact hother c (hsub hc) (fun hca => hpart (hca ▸ hc)) hb
  induction hn : xs.length using Nat.strongRecOn generalizing xs with
  | ind n ih =>
    by_cases hmem : a ∈ xs
    · obtain ⟨before, after, rfl, hbefore, hsplit⟩ := splitOn_of_mem hmem
      have hsub : after ⊆ before ++ a :: after :=
        fun c hc => List.mem_append_right before (List.mem_cons_of_mem a hc)
      have hafter := ih after.length (by
        rw [← hn, List.length_append, List.length_cons]
        omega) (fun c hc => hother c (hsub hc))
        (fun part hpart => hnotMem part fun _ hc => hsub (hpart hc)) rfl
      rw [hsplit, List.map_cons, ← hafter, List.flatMap_append, List.flatMap_cons, hseparator,
        List.singleton_append, List.splitOn_append_cons_self_of_not_mem
          (hnotMem before (List.subset_append_left _ _) hbefore)]
    · rw [List.splitOn_eq_singleton hmem,
        List.splitOn_eq_singleton (hnotMem xs (List.Subset.refl xs) hmem)]
      rfl

/-- The list is its parts, with the separator between them. -/
theorem splitOn_eq_pair {first second : List α} :
    xs.splitOn a = [first, second] ↔ a ∉ first ∧ a ∉ second ∧ xs = first ++ a :: second := by
  constructor
  · intro h
    have hparts : ∀ part ∈ [first, second], a ∉ part := fun part hpart =>
      not_mem_of_mem_splitOn (h ▸ hpart)
    have hxs : [a].intercalate (xs.splitOn a) = xs := List.intercalate_splitOn a
    rw [h] at hxs
    exact ⟨hparts _ List.mem_cons_self, hparts _ (List.mem_cons_of_mem _ List.mem_cons_self),
      hxs.symm.trans (by simp [List.intercalate])⟩
  · rintro ⟨hfirst, hsecond, rfl⟩
    rw [List.splitOn_append_cons_self_of_not_mem hfirst, List.splitOn_eq_singleton hsecond]

theorem splitOn_eq_triple {first second third : List α} :
    xs.splitOn a = [first, second, third] ↔
      a ∉ first ∧ a ∉ second ∧ a ∉ third ∧ xs = first ++ a :: (second ++ a :: third) := by
  constructor
  · intro h
    have hmem : a ∈ xs := by
      by_contra hnot
      rw [List.splitOn_eq_singleton hnot] at h
      cases h
    obtain ⟨before, after, rfl, hbefore, hsplit⟩ := splitOn_of_mem hmem
    obtain ⟨rfl, hafter⟩ := List.cons.inj (hsplit.symm.trans h)
    obtain ⟨hsecond, hthird, rfl⟩ := splitOn_eq_pair.mp hafter
    exact ⟨hbefore, hsecond, hthird, rfl⟩
  · rintro ⟨hfirst, hsecond, hthird, rfl⟩
    rw [List.splitOn_append_cons_self_of_not_mem hfirst,
      splitOn_eq_pair.mpr ⟨hsecond, hthird, rfl⟩]

end Split
