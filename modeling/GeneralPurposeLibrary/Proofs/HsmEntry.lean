import GeneralPurposeLibrary.Proofs.HsmBackPointer

/-!
# Initial entry

`hsm_init` climbs from the initial state to the root, tells every state on the way its
machine before it calls the handler, and enters the states it met in the opposite order.
The four entries of `path` are enough for an initial state of depth at most four.
-/

namespace GeneralPurposeLibrary.Proofs
open FaultingProgram

variable {S : Type}

/-! ### The entry path -/

/-- The first entries of `path` are the states of the list. -/
def PathHolds (path : Path S) (l : List S) : Prop := ∀ i, i < l.length → path i = l[i]?

lemma PathHolds.push {path : Path S} {l : List S} (h : PathHolds path l) (s : S) :
    PathHolds (Function.update path l.length (some s)) (l ++ [s]) := by
  intro i hi
  by_cases hlast : i = l.length
  · rw [hlast, Function.update_self, List.getElem?_concat_length]
  · have hlt : i < l.length := by
      rw [List.length_append, List.length_singleton] at hi
      omega
    rw [Function.update_of_ne hlast, List.getElem?_append_left hlt, h i hlt]

lemma pathHolds_singleton {path : Path S} {s : S} (h : path 0 = some s) : PathHolds path [s] := by
  intro i hi
  rw [show i = 0 by simpa using hi, h]
  rfl

lemma wp_pathGet_of {path : Path S} {i : Int} {n : Nat} {s : S} {Q : S → Hsm S → Prop}
    {E : Fault → Hsm S → Prop} {w : Hsm S} (hi : i = n) (hn : (n : Int) < hsmMaxNestDepth)
    (hs : path n = some s) (hQ : Q s w) : wp (path.get i) Q E w := by
  unfold Path.get
  rw [if_pos ⟨by omega, by omega⟩, hi, Int.toNat_natCast, hs]
  exact hQ

lemma wp_pathSet_of {path : Path S} {i : Int} {n : Nat} {s : S} {Q : Path S → Hsm S → Prop}
    {E : Fault → Hsm S → Prop} {w : Hsm S} (hi : i = n) (hn : (n : Int) < hsmMaxNestDepth)
    (hQ : Q (Function.update path n (some s)) w) : wp (path.set i s) Q E w := by
  unfold Path.set
  rw [if_pos ⟨by omega, by omega⟩, hi, Int.toNat_natCast]
  exact hQ

/-- The `hsm` fields after the states of the list were told their machine. -/
def tellStates [DecidableEq S] (hsm : S → HsmPtr) (l : List S) : S → HsmPtr :=
  fun u => if u ∈ l then .machine else hsm u

variable [DecidableEq S]

lemma tellStates_update (hsm : S → HsmPtr) (s : S) (l : List S) :
    tellStates (Function.update hsm s .machine) l = tellStates hsm (s :: l) := by
  funext u
  unfold tellStates
  by_cases hl : u ∈ l
  · rw [if_pos hl, if_pos (List.mem_cons_of_mem _ hl)]
  · by_cases hs : u = s
    · rw [if_neg hl, hs, Function.update_self, if_pos List.mem_cons_self]
    · rw [if_neg hl, Function.update_of_ne hs, if_neg]
      exact fun h => (List.mem_cons.mp h).elim hs hl

section Entry

variable {ch : Chart S} {tree : ParentTree S}

lemma wp_enterPath_holds {path : Path S} {l : List S} (hpath : PathHolds path l)
    (hlen : (l.length : Int) ≤ hsmMaxNestDepth) (hroot : ∀ u ∈ l, u ≠ ch.root) {count : Nat}
    (hcount : count ≤ l.length) (w : Hsm S) :
    wp (enterPath ch path count)
      (fun _ w' => actions w'.trace = actions w.trace ++ (l.take count).reverse.map Call.onEntry ∧
        w'.hsm = w.hsm) (fun _ _ => False) w := by
  induction count generalizing w with
  | zero =>
    rw [enterPath]
    exact ⟨by simp, rfl⟩
  | succ k ih =>
    have hk : l[k]? = some l[k] := List.getElem?_eq_getElem hcount
    have hlog : wp (callOnEntry ch l[k])
        (fun _ w' => w' = Hsm.log w (.onEntry l[k])) (fun _ _ => False) w := by
      unfold callOnEntry logCall
      rw [if_neg (hroot l[k] (List.getElem_mem hcount))]
      rfl
    unfold enterPath
    rw [wp_bind]
    refine wp_pathGet_of rfl (by omega) ((hpath k hcount).trans hk) ?_
    apply wp_seq hlog
    rintro _ _ rfl
    refine wp_mono (ih (by omega) _) ?_ (fun _ _ hfalse => hfalse)
    rintro _ w' ⟨hact, hhsm⟩
    refine ⟨?_, hhsm⟩
    rw [hact, List.take_add_one, hk, Option.toList_some, List.reverse_append,
      List.reverse_singleton, List.singleton_append, List.map_cons, Hsm.log, actions_append,
      List.append_assoc]
    rfl

variable (hf : Follows ch tree)
include hf

lemma wp_tell_and_ask {w : Hsm S} (hroot : w.nextState ≠ tree.root) :
    wp (do
        setStateHsm w.nextState
        callHandler ch w.nextState hsmEmptySig)
      (fun _ w' => w'.nextState = tree.parent w.nextState ∧ actions w'.trace = actions w.trace ∧
        w'.hsm = Function.update w.hsm w.nextState .machine) (fun _ _ => False) w := by
  obtain ⟨status, hexec⟩ := exec_setHsm_callHandler hf w
  refine wp_of_exec_ok hexec ⟨?_, ?_, rfl⟩
  · exact if_neg hroot
  · rw [climbedOnce, actions_append]
    exact List.append_nil _

/-- The climb stores the states from `u` up to the root behind those it has stored. -/
lemma wp_initClimb_chain {u : S} (stored : List S) {fuel : Nat} {ip : Int} {path : Path S}
    {w : Hsm S} (hnext : w.nextState = u) (hpath : PathHolds path stored)
    (hip : ip + 1 = stored.length)
    (hdepth : (stored.length + tree.depth u : Int) ≤ hsmMaxNestDepth)
    (hfuel : tree.depth u < fuel) :
    wp (initClimb ch tree.root fuel ip path)
      (fun r w' => PathHolds r.2 (stored ++ tree.upTo u tree.root) ∧
        r.1 + 1 = (stored ++ tree.upTo u tree.root).length ∧
        actions w'.trace = actions w.trace ∧
        w'.hsm = tellStates w.hsm (tree.upTo u tree.root)) (fun _ _ => False) w := by
  induction u using tree.rec_parent generalizing stored fuel ip path w with
  | hroot =>
    obtain ⟨n, rfl⟩ : ∃ n, fuel = n + 1 := ⟨fuel - 1, by omega⟩
    unfold initClimb
    rw [wp_bind, wp_get, if_neg (not_not.mpr hnext), tree.upTo_self, List.append_nil]
    exact ⟨hpath, hip, rfl, rfl⟩
  | hparent u hu ih =>
    obtain ⟨n, rfl⟩ : ∃ n, fuel = n + 1 := ⟨fuel - 1, by omega⟩
    have hd := tree.depth_parent u hu
    unfold initClimb
    rw [wp_bind, wp_get, if_pos (by rwa [hnext]), wp_bind]
    refine wp_pathSet_of hip (by omega) ?_
    rw [← bind_assoc]
    apply wp_seq (wp_tell_and_ask hf (by rwa [hnext]))
    rintro _ w₁ ⟨hnext₁, hact₁, hhsm₁⟩
    rw [hnext] at hnext₁ hhsm₁ ⊢
    have hlength : ip + 1 + 1 = ((stored ++ [u]).length : Int) := by
      rw [List.length_append, List.length_singleton]
      omega
    refine wp_mono (ih _ hnext₁ (hpath.push u) hlength (by omega) (by omega)) ?_
      (fun _ _ hfalse => hfalse)
    rintro r w₂ ⟨hpath₂, hip₂, hact₂, hhsm₂⟩
    rw [List.append_assoc, List.singleton_append, ← tree.upTo_cons hu hu] at hpath₂ hip₂
    refine ⟨hpath₂, hip₂, hact₂.trans hact₁, ?_⟩
    rw [hhsm₂, hhsm₁, tellStates_update, ← tree.upTo_cons hu hu]

lemma wp_hsmInit_enters {initial : S} (hroot : initial ≠ tree.root)
    (hdepth : (tree.depth initial : Int) ≤ hsmMaxNestDepth) {fuel : Nat}
    (hfuel : tree.depth initial ≤ fuel) (w : Hsm S) :
    wp (hsmInit ch fuel initial)
      (fun _ w' => actions w'.trace = actions w.trace ++
          (tree.upTo initial tree.root).reverse.map Call.onEntry ∧
        w'.hsm = tellStates w.hsm (tree.upTo initial tree.root) ∧
        w'.curState = initial ∧ w'.nextState = initial) (fun _ _ => False) w := by
  have hd := tree.depth_parent initial hroot
  have hcons := tree.upTo_cons hroot hroot
  have hlength := tree.length_upTo_root initial
  unfold hsmInit glbHsmCtor glbHsmInit
  rw [hf.root, wp_bind, wp_modify, wp_bind, wp_get, wp_bind]
  refine wp_pathSet_of (n := 0) rfl (by decide) ?_
  rw [← bind_assoc]
  apply wp_seq (wp_tell_and_ask hf (w := { w with curState := tree.root, nextState := initial })
    hroot)
  rintro _ w₁ ⟨hnext₁, hact₁, hhsm₁⟩
  dsimp only at hnext₁ hact₁ hhsm₁
  apply wp_seq (wp_initClimb_chain hf [initial] hnext₁
    (pathHolds_singleton (Function.update_self ..)) rfl
    (by rw [List.length_singleton]; omega) (by omega))
  rintro ⟨ip, path⟩ w₂ ⟨hpath, hip, hact₂, hhsm₂⟩
  dsimp only at hpath hip ⊢
  rw [List.singleton_append, ← hcons] at hpath hip
  have hzero : path 0 = some initial := by
    rw [hpath 0 (by omega), hcons]
    rfl
  have hbelow : ∀ u ∈ tree.upTo initial tree.root, u ≠ ch.root := by
    rw [hf.root]
    exact fun u hu => tree.ne_root_of_mem_upTo (tree.root_mem_chain initial) hu
  rw [wp_bind]
  refine wp_pathGet_of (n := 0) rfl (by decide) hzero ?_
  rw [setNextState, wp_bind, wp_modify]
  apply wp_seq (wp_enterPath_holds hpath (by omega) hbelow (by omega) _)
  rintro _ w₃ ⟨hact₃, hhsm₃⟩
  rw [wp_bind]
  refine wp_pathGet_of (n := 0) rfl (by decide) hzero ⟨?_, ?_, rfl, rfl⟩
  · rw [hip, Int.toNat_natCast, List.take_length] at hact₃
    dsimp only at hact₃ ⊢
    rw [hact₃, hact₂, hact₁]
  · dsimp only at hhsm₃ ⊢
    rw [hhsm₃, hhsm₂, hhsm₁, tellStates_update, ← hcons]

end Entry

/-- `hsm_init` ends in the initial state, having entered the states from below the root down
to it and told exactly these their machine. -/
theorem hsmInit_enters_initial (ch : Chart S) (tree : ParentTree S) (hf : Follows ch tree)
    (initial : S) (hroot : initial ≠ tree.root)
    (hdepth : (tree.depth initial : Int) ≤ hsmMaxNestDepth) (w : Hsm S) :
    ∃ n, ∀ fuel, n ≤ fuel → ∃ w', exec (hsmInit ch fuel initial) w = (.ok (), w') ∧
      actions w'.trace = actions w.trace ++
        (tree.upTo initial tree.root).reverse.map Call.onEntry ∧
      (∀ u, w'.hsm u = if u ∈ tree.upTo initial tree.root then .machine else w.hsm u) ∧
      w'.curState = initial ∧ w'.nextState = initial := by
  refine ⟨tree.depth initial, fun fuel hfuel => ?_⟩
  obtain ⟨_, w', hexec, hact, hhsm, hcur, hnext⟩ :=
    exists_ok_of_wp (wp_hsmInit_enters hf hroot hdepth hfuel w)
  exact ⟨w', hexec, hact, fun u => congrFun hhsm u, hcur, hnext⟩

theorem hsmInit_enters_level3 :
    ∃ n, ∀ fuel, n ≤ fuel → ∃ w', exec (hsmInit levelChart fuel .level3) (bootHsm .root) =
        (.ok (), w') ∧
      actions w'.trace = [.onEntry .level1, .onEntry .level2, .onEntry .level3] ∧
      w'.curState = .level3 := by
  obtain ⟨n, hn⟩ := hsmInit_enters_initial levelChart levelTree levelChart_follows .level3
    (by decide) (by decide) (bootHsm .root)
  refine ⟨n, fun fuel hfuel => ?_⟩
  obtain ⟨w', hexec, hact, -, hcur, -⟩ := hn fuel hfuel
  exact ⟨w', hexec, hact, hcur⟩

end GeneralPurposeLibrary.Proofs
