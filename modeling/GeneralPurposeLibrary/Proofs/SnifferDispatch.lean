import GeneralPurposeLibrary.Foundation.GuardedRuns
import GeneralPurposeLibrary.Proofs.KlistSafeIteration
import GeneralPurposeLibrary.SnifferFramework

/-!
# Dispatching frames to the filters

A frame goes to every registered filter once, the filter registered last first. This rests on
the filters being distinct: a filter registered a second time closes the list into a loop
that does not come back to its head.
-/

namespace GeneralPurposeLibrary.Proofs
open LinkedRing

variable {World : Type} {filterHead : ℕ}

/-! ### The abstract sniffer -/

/-- The filters, newest first, and the context of the callbacks. -/
structure SnifferSpec (World : Type) where
  filters : List ℕ
  context : SnifferContext World

/-- One frame handed to the filters in turn. -/
def dispatchFrame (filter : ℕ → SnifferFilter World) (filters : List ℕ) (frame : List UInt8)
    (context : SnifferContext World) : SnifferContext World :=
  filters.foldl (fun context f => applyFilter (filter f) (receivedSize frame) context)
    { context with buffer := receive context.buffer frame }

def snifferSpecStep (filter : ℕ → SnifferFilter World) (s : SnifferSpec World) :
    SnifferCall → SnifferSpec World
  | .register f => { s with filters := f :: s.filters }
  | .turn none => s
  | .turn (some frame) => { s with context := dispatchFrame filter s.filters frame s.context }

def registeredBy : SnifferCall → Option ℕ
  | .register f => some f
  | .turn _ => none

/-! ### One frame -/

lemma filterLoop_of_ring {m : SnifferMemory World} {kept rest : List ℕ} {dataSize : Int32}
    {fuel pos : ℕ} {context : SnifferContext World}
    (h : OnRing m.nodes filterHead (kept ++ rest)) (hpos : pos = rest.head?.getD filterHead)
    (hfuel : rest.length < fuel) :
    filterLoop filterHead m dataSize fuel pos context =
      some (rest.foldl (fun context f => applyFilter (m.filter f) dataSize context) context) := by
  induction rest generalizing kept pos fuel context with
  | nil =>
    obtain ⟨fuel, rfl⟩ : ∃ k, fuel = k + 1 := ⟨fuel - 1, by omega⟩
    have hpos : pos = filterHead := hpos
    rw [filterLoop, if_pos hpos]
    rfl
  | cons a rest ih =>
    obtain ⟨fuel, rfl⟩ : ∃ k, fuel = k + 1 := ⟨fuel - 1, by omega⟩
    have hpos : pos = a := hpos
    subst hpos
    have hne : pos ≠ filterHead := by
      rintro rfl
      exact h.head_notMem (by simp)
    have hring : OnRing m.nodes filterHead ((kept ++ [pos]) ++ rest) := by simpa using h
    have hnext : (m.nodes pos).next = rest.head?.getD filterHead := next_of_onRing h
    rw [filterLoop, if_neg hne, ih hring hnext (Nat.lt_of_succ_lt_succ hfuel)]
    rfl

lemma snifferModel_of_ring {m : SnifferMemory World} {filters : List ℕ} {fuel : ℕ}
    (h : OnRing m.nodes filterHead filters) (frame : List UInt8) (hfuel : filters.length < fuel) :
    snifferModel filterHead m (some frame) fuel =
      some { m with context := dispatchFrame m.filter filters frame m.context } := by
  have hring : OnRing m.nodes filterHead ([] ++ filters) := h
  have hfirst : (m.nodes filterHead).next = filters.head?.getD filterHead := h.next_head_eq
  rw [snifferModel, filterLoop_of_ring hring hfirst hfuel]
  rfl

/-! ### Whole runs -/

/-- The memory stands for the abstract sniffer. -/
structure Sniffs (filterHead : ℕ) (filter : ℕ → SnifferFilter World) (m : SnifferMemory World)
    (s : SnifferSpec World) : Prop where
  ring : OnRing m.nodes filterHead s.filters
  filter_eq : m.filter = filter
  context_eq : m.context = s.context

lemma sniffs_step {filter : ℕ → SnifferFilter World} {m : SnifferMemory World}
    {s : SnifferSpec World} (h : Sniffs filterHead filter m s) {call : SnifferCall}
    (hfresh : ∀ f ∈ registeredBy call, f ∉ filterHead :: s.filters) {fuel : ℕ}
    (hfuel : s.filters.length < fuel) :
    ∃ m', snifferStep filterHead fuel m call = some m' ∧
      Sniffs filterHead filter m' (snifferSpecStep filter s call) := by
  cases call with
  | register f =>
    refine ⟨_, rfl, ?_⟩
    exact ⟨onRing_listAdd h.ring (hfresh f rfl), h.filter_eq, h.context_eq⟩
  | turn received =>
    cases received with
    | none => exact ⟨m, rfl, h⟩
    | some frame =>
      refine ⟨_, snifferModel_of_ring h.ring frame hfuel, h.ring, h.filter_eq, ?_⟩
      rw [h.filter_eq, h.context_eq]
      rfl

/-- The filters that the calls register, in their order. -/
def registered (calls : List SnifferCall) : List ℕ := calls.filterMap registeredBy

lemma sniffs_run {filter : ℕ → SnifferFilter World} {m : SnifferMemory World}
    {s : SnifferSpec World} (h : Sniffs filterHead filter m s) {calls : List SnifferCall}
    (hnodup : (registered calls).Nodup)
    (hnew : ∀ f ∈ registered calls, f ∉ filterHead :: s.filters) {fuel : ℕ}
    (hfuel : s.filters.length + (registered calls).length < fuel) :
    ∃ m', GuardedRuns.run (snifferStep filterHead fuel) m calls = some m' ∧
      Sniffs filterHead filter m' (calls.foldl (snifferSpecStep filter) s) := by
  induction calls generalizing m s with
  | nil => exact ⟨m, rfl, h⟩
  | cons call calls ih =>
    have hfresh : ∀ f ∈ registeredBy call, f ∉ filterHead :: s.filters := by
      intro f hf
      exact hnew f (by simp [registered, Option.mem_def.mp hf])
    obtain ⟨m₁, hstep, h₁⟩ := sniffs_step h hfresh (by omega : s.filters.length < fuel)
    have hrun : ∀ m', GuardedRuns.run (snifferStep filterHead fuel) m₁ calls = some m' →
        GuardedRuns.run (snifferStep filterHead fuel) m (call :: calls) = some m' := by
      intro m' hm'
      rw [GuardedRuns.run, hstep]
      exact hm'
    cases call with
    | register f =>
      have hcons : registered (.register f :: calls) = f :: registered calls := rfl
      rw [hcons] at hnodup hnew hfuel
      obtain ⟨hf, hrest⟩ := List.nodup_cons.mp hnodup
      obtain ⟨m', hm', hs'⟩ := ih h₁ hrest (by
        intro g hg hmem
        have hgf : g ≠ f := fun e => hf (e ▸ hg)
        have hold := hnew g (List.mem_cons_of_mem f hg)
        simp only [snifferSpecStep, List.mem_cons] at hmem hold
        tauto) (by
        simp only [snifferSpecStep, List.length_cons] at hfuel ⊢
        omega)
      exact ⟨m', hrun m' hm', hs'⟩
    | turn received =>
      have hsame : (snifferSpecStep filter s (.turn received)).filters = s.filters := by
        cases received <;> rfl
      obtain ⟨m', hm', hs'⟩ := ih h₁ hnodup (by rw [hsame]; exact hnew) (by
        rw [hsame]
        exact hfuel)
      exact ⟨m', hrun m' hm', hs'⟩

lemma sniffs_snifferInit (filterHead : ℕ) (m : SnifferMemory World) (buffer : List UInt8)
    {sockfd : Int} (hsock : 0 ≤ sockfd) :
    (snifferInit filterHead m (some buffer) sockfd).1 = 0 ∧
      Sniffs filterHead m.filter (snifferInit filterHead m (some buffer) sockfd).2
        ⟨[], { m.context with buffer := buffer }⟩ := by
  rw [snifferInit, if_neg (by omega)]
  exact ⟨rfl, onRing_initListHead, rfl, rfl⟩

/-- After `sniffer_init`, whatever filters are registered between whatever frames, every frame
goes to each filter registered before it, once and newest first, and to no other. -/
theorem frames_go_to_every_filter (m : SnifferMemory World) (filterHead : ℕ)
    (buffer : List UInt8) (sockfd : Int) (hsock : 0 ≤ sockfd) (calls : List SnifferCall)
    (hdistinct : (filterHead :: registered calls).Nodup) (fuel : ℕ)
    (hfuel : (registered calls).length < fuel) :
    ∃ m', GuardedRuns.run (snifferStep filterHead fuel)
        (snifferInit filterHead m (some buffer) sockfd).2 calls = some m' ∧
      m'.context = (calls.foldl (snifferSpecStep m.filter)
        ⟨[], { m.context with buffer := buffer }⟩).context := by
  obtain ⟨_, hinit⟩ := sniffs_snifferInit filterHead m buffer hsock
  obtain ⟨hhead, hnodup⟩ := List.nodup_cons.mp hdistinct
  have hnew : ∀ f ∈ registered calls, f ∉ [filterHead] := by
    intro f hf hmem
    rw [List.mem_singleton] at hmem
    exact hhead (hmem ▸ hf)
  obtain ⟨m', hrun, hs'⟩ := sniffs_run hinit hnodup hnew (by simpa using hfuel)
  exact ⟨m', hrun, hs'.context_eq⟩

/-- A filter that takes every frame and writes its number down. -/
def numberFilter (n : ℕ) : SnifferFilter (List ℕ) where
  match_ := fun context _ => (1, context)
  action := fun context _ => { context with world := context.world ++ [n] }

def numberMemory : SnifferMemory (List ℕ) := ⟨fun _ => ⟨0, 0⟩, numberFilter, ⟨[], []⟩⟩

theorem frames_go_to_filters_4_and_3 :
    ∃ m', GuardedRuns.run (snifferStep 1 3) (snifferInit 1 numberMemory (some [0]) 5).2
        [.register 3, .turn (some [7]), .register 4, .turn none, .turn (some [8])] = some m' ∧
      m'.context = ⟨[8], [3, 4, 3]⟩ :=
  frames_go_to_every_filter numberMemory 1 [0] 5 (by decide)
    [.register 3, .turn (some [7]), .register 4, .turn none, .turn (some [8])] (by decide) 3
    (by decide)

/-! ### A filter registered twice -/

/-- Following the list from its head one never comes back to the head. -/
def Trapped (nodes : Nodes ℕ) (head : ℕ) : Prop :=
  ∃ S : ℕ → Prop, ¬S head ∧ S (nodes head).next ∧ ∀ a, S a → S (nodes a).next

section Trapped

variable {nodes : Nodes ℕ} {head f : ℕ} {l : List ℕ}

lemma next_listAdd (nodes : Nodes ℕ) (f head a : ℕ) :
    (listAdd nodes f head a).next =
      if a = head then f else if a = f then (nodes head).next else (nodes a).next := by
  have hnext : nextOf (listAdd nodes f head) =
      Function.update (Function.update (nextOf nodes) f (nodes head).next) head f := by
    simp only [listAdd, _listAdd, nextOf_setNext, nextOf_setPrev]
  have ha := congrFun hnext a
  rw [Function.update_apply, Function.update_apply] at ha
  exact ha

lemma trapped_listAdd (h : Trapped nodes head) (hne : f ≠ head) :
    Trapped (listAdd nodes f head) head := by
  obtain ⟨S, hhead, hfirst, hclosed⟩ := h
  refine ⟨fun a => a = f ∨ S a, ?_, ?_, ?_⟩
  · rintro (e | hS)
    · exact hne e.symm
    · exact hhead hS
  · rw [next_listAdd, if_pos rfl]
    exact Or.inl rfl
  · intro a ha
    have hahead : a ≠ head := by
      rintro rfl
      exact ha.elim (fun e => hne e.symm) hhead
    rw [next_listAdd, if_neg hahead]
    by_cases haf : a = f
    · rw [if_pos haf]
      exact Or.inr hfirst
    · rw [if_neg haf]
      exact Or.inr (hclosed a (ha.resolve_left haf))

/-- The entries between the head and the one added again form a loop with it. -/
lemma trapped_listAdd_of_mem (h : OnRing nodes head l) (hf : f ∈ l) :
    Trapped (listAdd nodes f head) head := by
  obtain ⟨l₁, l₂, rfl⟩ := List.append_of_mem hf
  have hhead : head ∉ l₁ ++ f :: l₂ := h.head_notMem
  have hfhead : f ≠ head := fun e => hhead (by simp [e])
  refine ⟨fun a => a = f ∨ a ∈ l₁, ?_, ?_, ?_⟩
  · rintro (e | hmem)
    · exact hfhead e.symm
    · exact hhead (List.mem_append_left _ hmem)
  · rw [next_listAdd, if_pos rfl]
    exact Or.inl rfl
  · intro a ha
    have hahead : a ≠ head := by
      rintro rfl
      exact ha.elim (fun e => hfhead e.symm) fun hmem => hhead (List.mem_append_left _ hmem)
    rw [next_listAdd, if_neg hahead]
    by_cases haf : a = f
    · rw [if_pos haf]
      have hfirst : (nodes head).next = (l₁ ++ f :: l₂).head?.getD head := h.next_head_eq
      rw [hfirst]
      cases l₁ with
      | nil => exact Or.inl rfl
      | cons b l₁ => exact Or.inr List.mem_cons_self
    · rw [if_neg haf]
      obtain ⟨k₁, k₂, rfl⟩ := List.append_of_mem (ha.resolve_left haf)
      rw [List.append_assoc, List.cons_append] at h
      rw [next_of_onRing h]
      cases k₂ with
      | nil => exact Or.inl rfl
      | cons b k₂ =>
        right
        simp

lemma filterLoop_trapped {m : SnifferMemory World} {S : ℕ → Prop} (hhead : ¬S filterHead)
    (hclosed : ∀ a, S a → S (m.nodes a).next) {dataSize : Int32} {pos : ℕ} (hpos : S pos)
    (fuel : ℕ) (context : SnifferContext World) :
    filterLoop filterHead m dataSize fuel pos context = none := by
  induction fuel generalizing pos context with
  | zero => rfl
  | succ fuel ih =>
    have hne : pos ≠ filterHead := fun e => hhead (e ▸ hpos)
    rw [filterLoop, if_neg hne]
    exact ih (hclosed pos hpos) _

lemma registrations_spec (h : OnRing nodes head []) (fs : List ℕ) (hhead : head ∉ fs) :
    (fs.Nodup → OnRing (fs.foldl (fun nodes f => listAdd nodes f head) nodes) head fs.reverse) ∧
      (¬fs.Nodup → Trapped (fs.foldl (fun nodes f => listAdd nodes f head) nodes) head) := by
  induction fs using List.reverseRecOn with
  | nil => exact ⟨fun _ => h, fun hnot => absurd List.nodup_nil hnot⟩
  | append_singleton fs f ih =>
    have hheadfs : head ∉ fs := fun hmem => hhead (List.mem_append_left _ hmem)
    have hne : f ≠ head := fun e => hhead (by simp [e])
    obtain ⟨hring, htrapped⟩ := ih hheadfs
    rw [List.foldl_concat, List.reverse_concat]
    have hnodup : (fs ++ [f]).Nodup ↔ fs.Nodup ∧ f ∉ fs := by
      rw [← List.concat_eq_append, List.nodup_concat, and_comm]
    rw [hnodup]
    constructor
    · rintro ⟨hfs, hf⟩
      apply onRing_listAdd (hring hfs)
      simp [hne, hf]
    · intro hnot
      by_cases hfs : fs.Nodup
      · have hf : f ∈ fs := by
          by_contra hf
          exact hnot ⟨hfs, hf⟩
        exact trapped_listAdd_of_mem (hring hfs) (List.mem_reverse.mpr hf)
      · exact trapped_listAdd (htrapped hfs) hne

end Trapped

lemma nodes_foldl_register (m : SnifferMemory World) (fs : List ℕ) :
    (fs.foldl (fun m f => (registerSniffer filterHead m f).2) m).nodes =
      fs.foldl (fun nodes f => listAdd nodes f filterHead) m.nodes := by
  induction fs generalizing m with
  | nil => rfl
  | cons f fs ih => exact ih (registerSniffer filterHead m f).2

/-- After any registrations, the worker comes back from a frame exactly when no filter was
registered twice. -/
theorem turn_ends_iff_filters_distinct (m : SnifferMemory World) (filterHead : ℕ)
    (buffer : List UInt8) (sockfd : Int) (hsock : 0 ≤ sockfd) (fs : List ℕ)
    (hhead : filterHead ∉ fs) (frame : List UInt8) :
    (∃ fuel, (snifferModel filterHead
      (fs.foldl (fun m f => (registerSniffer filterHead m f).2)
        (snifferInit filterHead m (some buffer) sockfd).2) (some frame) fuel).isSome) ↔
      fs.Nodup := by
  obtain ⟨_, hinit⟩ := sniffs_snifferInit filterHead m buffer hsock
  obtain ⟨hring, htrapped⟩ := registrations_spec hinit.ring fs hhead
  rw [← nodes_foldl_register] at hring htrapped
  constructor
  · rintro ⟨fuel, hsome⟩
    by_contra hnot
    obtain ⟨S, hS, hfirst, hclosed⟩ := htrapped hnot
    rw [snifferModel, filterLoop_trapped hS hclosed hfirst] at hsome
    cases hsome
  · intro hnodup
    refine ⟨fs.reverse.length + 1, ?_⟩
    rw [snifferModel_of_ring (hring hnodup) frame (Nat.lt_succ_self _)]
    rfl

theorem turn_ends_iff_filters_distinct_repeated :
    ¬∃ fuel, (snifferModel 1 ([3, 4, 3].foldl (fun m f => (registerSniffer 1 m f).2)
      (snifferInit 1 numberMemory (some [0]) 5).2) (some [7]) fuel).isSome := by
  rw [turn_ends_iff_filters_distinct numberMemory 1 [0] 5 (by decide) [3, 4, 3] (by decide) [7]]
  decide

end GeneralPurposeLibrary.Proofs
