import GeneralPurposeLibrary.Proofs.KlistRefinement

/-!
# Deleting entries while iterating

The body of a `list_for_each_safe` loop may delete the entry it is at and hand its memory to
somebody else. The loop still visits every entry once.
-/

namespace GeneralPurposeLibrary.Proofs
open LinkedRing

/-- A body that deletes the entries that are to be dropped and overwrites their links. -/
def dropBody (version : ListVersion) (drop : ℕ → Bool) (freed : ℕ → ListHead ℕ) (pos : ℕ)
    (nodes : Nodes ℕ) : Nodes ℕ :=
  if drop pos then Function.update (entryDel nodes version pos) pos (freed pos) else nodes

section Body

variable {nodes : Nodes ℕ} {head a b : ℕ} {l kept rest : List ℕ} (version : ListVersion)

lemma entryDel_of_ne (hb : b ≠ a) :
    entryDel nodes version a b = _listDel nodes (nodes a).prev (nodes a).next b := by
  cases version with
  | klist => exact klistDel_of_ne hb
  | utils => rfl

lemma onRing_entryDel (h : OnRing nodes head (kept ++ a :: rest)) (freed : ListHead ℕ) :
    OnRing (Function.update (entryDel nodes version a) a freed) head (kept ++ rest) := by
  have hnodup : (head :: (kept ++ a :: rest)).Nodup := h.nodup
  have hout : a ∉ head :: (kept ++ rest) := by
    have hmiddle : ((head :: kept) ++ a :: rest).Nodup := hnodup
    exact (List.nodup_middle.mp hmiddle |> List.nodup_cons.mp).1
  apply (onRing_unlink h).congr
  intro b hb
  have hba : b ≠ a := fun e => hout (e ▸ hb)
  rw [Function.update_of_ne hba, entryDel_of_ne version hba]

lemma entryDel_frame (h : OnRing nodes head l) (ha : a ∈ l) (freed : ListHead ℕ)
    (hb : b ∉ head :: l) : Function.update (entryDel nodes version a) a freed b = nodes b := by
  have hba : b ≠ a := fun e => hb (e ▸ List.mem_cons_of_mem head ha)
  rw [Function.update_of_ne hba, entryDel_of_ne version hba,
    unlink_of_notMem h (List.mem_cons_of_mem head ha) hb]

end Body

section Loop

variable {nodes : Nodes ℕ} {head pos fuel : ℕ} {l kept rest : List ℕ} (version : ListVersion)
  (drop : ℕ → Bool) (freed : ℕ → ListHead ℕ)

lemma next_of_onRing {a : ℕ} (h : OnRing nodes head (kept ++ a :: rest)) :
    (nodes a).next = rest.head?.getD head := by
  have hrotated := h.rotate.next_head_eq
  cases rest with
  | nil => exact hrotated
  | cons b rest => exact hrotated

/-- The loop in front of `rest`: the entries behind it are settled. -/
lemma forEachSafeLoop_spec (h : OnRing nodes head (kept ++ rest))
    (hpos : pos = rest.head?.getD head) (hfuel : rest.length < fuel) :
    ∃ nodes', forEachSafeLoop head (dropBody version drop freed) fuel pos (nodes pos).next nodes =
        some (rest, nodes') ∧
      OnRing nodes' head (kept ++ rest.filter fun a => !drop a) ∧
      ∀ b, b ∉ head :: (kept ++ rest) → nodes' b = nodes b := by
  induction rest generalizing nodes kept pos fuel with
  | nil =>
    obtain ⟨fuel, rfl⟩ : ∃ k, fuel = k + 1 := ⟨fuel - 1, by omega⟩
    have hpos : pos = head := hpos
    refine ⟨nodes, ?_, h, fun _ _ => rfl⟩
    rw [forEachSafeLoop, if_pos hpos]
  | cons a rest ih =>
    obtain ⟨fuel, rfl⟩ : ∃ k, fuel = k + 1 := ⟨fuel - 1, by omega⟩
    have hposa : pos = a := hpos
    subst hposa
    have hne : pos ≠ head := by
      rintro rfl
      exact h.head_notMem (by simp)
    have hn : (nodes pos).next = rest.head?.getD head := next_of_onRing h
    rw [forEachSafeLoop, if_neg hne]
    by_cases hdrop : drop pos = true
    · -- The entry leaves the list; the links of what is ahead are those read before.
      have hring := onRing_entryDel version h (freed pos)
      obtain ⟨nodes', hloop, hring', hframe⟩ :=
        ih hring hn (Nat.lt_of_succ_lt_succ hfuel)
      refine ⟨nodes', ?_, ?_, ?_⟩
      · simp only [dropBody, hdrop, if_true]
        rw [hloop]
        rfl
      · simpa [hdrop] using hring'
      · intro b hb
        have hbrest : b ∉ head :: (kept ++ rest) := by
          intro hmem
          apply hb
          simp only [List.mem_cons, List.mem_append] at hmem ⊢
          tauto
        rw [hframe b hbrest]
        exact entryDel_frame version h (by simp) (freed pos) hb
    · have hring : OnRing nodes head ((kept ++ [pos]) ++ rest) := by simpa using h
      obtain ⟨nodes', hloop, hring', hframe⟩ :=
        ih hring hn (Nat.lt_of_succ_lt_succ hfuel)
      refine ⟨nodes', ?_, ?_, ?_⟩
      · simp only [dropBody, if_neg hdrop]
        rw [hloop]
        rfl
      · simpa [hdrop] using hring'
      · intro b hb
        exact hframe b (by simpa using hb)

end Loop

/-- Whatever entries the body deletes and whatever becomes of their memory, the loop visits
every entry once and in order, the others stay on the list in their order, and no other list
changes. -/
theorem listForEachSafe_drops (version : ListVersion) (drop : ℕ → Bool)
    (freed : ℕ → ListHead ℕ) (nodes : Nodes ℕ) (lists : Lists) (h : InMemory nodes lists)
    (head : ℕ) (l : List ℕ) (hl : lists head = some l) (fuel : ℕ) (hfuel : l.length < fuel) :
    ∃ nodes', listForEachSafe nodes head (dropBody version drop freed) fuel = some (l, nodes') ∧
      InMemory nodes' (Function.update lists head (some (l.filter fun a => !drop a))) := by
  have hring : OnRing nodes head ([] ++ l) := IsFamily.ring h head l hl
  have hfirst : (nodes head).next = l.head?.getD head := IsRing.next_head_eq hring
  obtain ⟨nodes', hloop, hring', hframe⟩ :=
    forEachSafeLoop_spec version drop freed hring hfirst hfuel
  refine ⟨nodes', hloop, ?_⟩
  refine IsFamily.replace h head (· ∈ head :: l) ?_ ?_ ?_
  · intro b hb
    rw [nextOf, nextOf, prevOf, prevOf, hframe b hb]
    exact ⟨rfl, rfl⟩
  · intro head' l' hl' hne
    rw [Function.update_of_ne hne] at hl'
    exact ⟨hl', fun b hb hmem => IsFamily.apart h head' l' head l hl' hl hne hb hmem⟩
  · intro l' hl'
    rw [Function.update_self] at hl'
    cases hl'
    refine ⟨hring', ?_⟩
    intro b hb
    rcases List.mem_cons.mp hb with rfl | hb
    · exact List.mem_cons_self
    · exact List.mem_cons_of_mem head (List.mem_of_mem_filter hb)

/-- The middle one of the three entries of the sample is deleted on the way. -/
theorem listForEachSafe_drops_sample :
    ∃ nodes', listForEachSafe (sampleKlistCalls.foldl (klistStep .klist) fun _ => ⟨0, 0⟩) 1
        (dropBody .klist (· == 10) fun _ => ⟨7, 7⟩) 4 = some ([12, 10, 11], nodes') ∧
      InMemory nodes'
        (Function.update (sampleKlistCalls.foldl listsAfter fun _ => none) 1 (some [12, 11])) :=
  listForEachSafe_drops .klist (· == 10) (fun _ => ⟨7, 7⟩)
    (sampleKlistCalls.foldl (klistStep .klist) fun _ => ⟨0, 0⟩)
    (sampleKlistCalls.foldl listsAfter fun _ => none)
    (inMemory_run .klist (IsFamily.empty _ _) sampleKlistCalls_rules) 1 [12, 10, 11] (by decide)
    4 (by decide)

end GeneralPurposeLibrary.Proofs
