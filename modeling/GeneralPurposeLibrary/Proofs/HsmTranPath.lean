import GeneralPurposeLibrary.Proofs.HsmEntry

/-!
# The path of a transition

`hsm_tran` tells apart seven relative positions of the source and the target. Four of them
are recognised from the two superstates. In the others it stores the states from the target
upwards until it meets the source or has stored the root, and then, unless the source was
met, exits the source and its superstates until it reaches a stored state. In each case
the states it exited and the entry path it leaves meet at the pivot of the transition.
-/

namespace GeneralPurposeLibrary.Proofs
open FaultingProgram

variable {S : Type}

/-- Between the two machines the states of the list were exited, in this order. -/
structure Exited (w w' : Hsm S) (l : List S) : Prop where
  hsm : w'.hsm = w.hsm
  exits : actions w'.trace = actions w.trace ++ l.map Call.onExit

lemma Exited.refl (w : Hsm S) : Exited w w [] := ⟨rfl, (List.append_nil _).symm⟩

lemma Exited.trans {w w₁ w₂ : Hsm S} {l l' : List S} (h : Exited w w₁ l) (h' : Exited w₁ w₂ l') :
    Exited w w₂ (l ++ l') := by
  refine ⟨h'.hsm.trans h.hsm, ?_⟩
  rw [h'.exits, h.exits, List.append_assoc, List.map_append]

lemma Exited.known {tree : ParentTree S} {w w' : Hsm S} {l : List S} (h : Exited w w' l)
    (hknown : ∀ u, u ≠ tree.root → w.hsm u = .machine) :
    ∀ u, u ≠ tree.root → w'.hsm u = .machine := by
  rw [h.hsm]
  exact hknown

lemma PathHolds.of_append {path : Path S} {l l' : List S} (h : PathHolds path (l ++ l')) :
    PathHolds path l := by
  intro i hi
  rw [h i (by rw [List.length_append]; omega), List.getElem?_append_left hi]

variable [DecidableEq S]

/-! ### The states stored on the way up from the target -/

/-- The states from `u` up to `s`, or up to the root if `s` is not above `u`. -/
def climbStates (tree : ParentTree S) (s u : S) : List S :=
  uptoFirst (fun v => v = s) (tree.chain u)

section ClimbStates

variable (tree : ParentTree S) {s u : S}

lemma climbStates_self (s : S) : climbStates tree s s = [s] := by
  unfold climbStates
  by_cases hs : s = tree.root
  · rw [hs, tree.chain_root, uptoFirst, if_pos rfl]
  · rw [tree.chain_of_ne_root hs, uptoFirst, if_pos rfl]

lemma climbStates_root (s : S) : climbStates tree s tree.root = [tree.root] := by
  rw [climbStates, tree.chain_root, uptoFirst]
  split <;> rfl

lemma climbStates_cons (hu : u ≠ tree.root) (hs : u ≠ s) :
    climbStates tree s u = u :: climbStates tree s (tree.parent u) := by
  rw [climbStates, tree.chain_of_ne_root hu, uptoFirst, if_neg hs, climbStates]

lemma climbStates_of_mem (h : s ∈ tree.chain u) :
    climbStates tree s u = tree.upTo u s ++ [s] := by
  induction u using tree.rec_parent with
  | hroot =>
    have hs : s = tree.root := by simpa using h
    rw [hs, climbStates_root, tree.upTo_self, List.nil_append]
  | hparent u hu ih =>
    by_cases hs : u = s
    · rw [hs, climbStates_self, tree.upTo_self, List.nil_append]
    · rw [tree.chain_of_ne_root hu] at h
      rw [climbStates_cons tree hu hs, ih ((List.mem_cons.mp h).resolve_left (Ne.symm hs)),
        tree.upTo_cons hu hs, List.cons_append]

lemma climbStates_of_not_mem (h : s ∉ tree.chain u) : climbStates tree s u = tree.chain u := by
  induction u using tree.rec_parent with
  | hroot => rw [climbStates_root, tree.chain_root]
  | hparent u hu ih =>
    have hs : u ≠ s := by
      rintro rfl
      exact h (tree.mem_chain_self u)
    rw [tree.chain_of_ne_root hu] at h ⊢
    rw [climbStates_cons tree hu hs, ih (fun hmem => h (List.mem_cons_of_mem _ hmem))]

end ClimbStates

/-! ### Asking, exiting and searching -/

section Steps

variable {ch : Chart S} {tree : ParentTree S} {E : Fault → Hsm S → Prop}

lemma wp_ask_super (hf : Follows ch tree) {u : S} (hu : u ≠ tree.root) {w : Hsm S}
    (hk : w.hsm u = .machine) :
    wp (getSuperState ch u)
      (fun status w' => status = evtStatusSuper ∧ w'.nextState = tree.parent u ∧ Exited w w' [])
      E w := by
  refine wp_of_exec_ok (exec_getSuperState hf hu hk) ⟨rfl, rfl, rfl, ?_⟩
  rw [Hsm.log, actions_append]
  rfl

lemma wp_ask_root (hf : Follows ch tree) (w : Hsm S) :
    wp (getSuperState ch tree.root)
      (fun status w' => status = evtStatusIgnored ∧ Exited w w' []) E w := by
  have hexec := exec_callHandler hf (s := tree.root) (w := w) (fun h => absurd rfl h) hsmEmptySig
  rw [handler_root hf] at hexec
  refine wp_of_exec_ok hexec ⟨rfl, rfl, ?_⟩
  rw [Hsm.log, actions_append]
  rfl

lemma wp_exit_state (hf : Follows ch tree) {u : S} (hu : u ≠ tree.root) (w : Hsm S) :
    wp (callOnExit ch u)
      (fun status w' => status = ch.exitAction u ∧ w'.nextState = w.nextState ∧ Exited w w' [u])
      E w := by
  unfold callOnExit logCall
  rw [hf.root, if_neg hu]
  refine ⟨rfl, rfl, rfl, ?_⟩
  rw [actions_append]
  rfl

lemma wp_searchPath_finds {path : Path S} {l : List S} (hpath : PathHolds path l)
    (hlen : (l.length : Int) ≤ hsmMaxNestDepth) (a : S) (status ip : Int) {iq : Nat}
    (hiq : iq < l.length) (w : Hsm S) :
    wp (searchPath a path status ip iq)
      (fun r w' => w' = w ∧ ((∃ k : Nat, l[k]? = some a ∧ r = (evtStatusHandled, (k : Int) - 1)) ∨
        ((∀ k, k ≤ iq → l[k]? ≠ some a) ∧ r = (status, ip)))) E w := by
  induction iq with
  | zero =>
    have hget : l[0]? = some l[0] := List.getElem?_eq_getElem hiq
    unfold searchPath
    rw [wp_bind]
    refine wp_pathGet_of (n := 0) rfl (by decide) ((hpath 0 hiq).trans hget) ?_
    split
    case isTrue ha =>
      refine ⟨rfl, .inl ⟨0, ?_, rfl⟩⟩
      rw [ha, hget]
    case isFalse ha =>
      refine ⟨rfl, .inr ⟨?_, rfl⟩⟩
      intro k hk hka
      rw [Nat.le_zero.mp hk, hget] at hka
      exact ha (Option.some.inj hka).symm
  | succ iq ih =>
    have hget : l[iq + 1]? = some l[iq + 1] := List.getElem?_eq_getElem hiq
    unfold searchPath
    rw [wp_bind]
    refine wp_pathGet_of (n := iq + 1) rfl (by omega) ((hpath _ hiq).trans hget) ?_
    split
    case isTrue ha =>
      refine ⟨rfl, .inl ⟨iq + 1, ?_, ?_⟩⟩
      · rw [ha, hget]
      · rw [Int.natCast_succ, Int.add_sub_cancel]
    case isFalse ha =>
      refine wp_mono (ih (by omega)) ?_ (fun _ _ he => he)
      rintro r w' ⟨hw', hfound | ⟨hnone, hr⟩⟩
      · exact ⟨hw', .inl hfound⟩
      · refine ⟨hw', .inr ⟨?_, hr⟩⟩
        intro k hk hka
        rcases Nat.lt_or_eq_of_le hk with hlt | heq
        · exact hnone k (by omega) hka
        · rw [heq, hget] at hka
          exact ha (Option.some.inj hka).symm

lemma wp_searchPath_chain {path : Path S} {t : S} (hpath : PathHolds path (tree.chain t))
    (hlen : ((tree.chain t).length : Int) ≤ hsmMaxNestDepth) (a : S) {ip : Int}
    (hip : ip + 1 = (tree.chain t).length) (w : Hsm S) :
    wp (searchPath a path evtStatusIgnored ip ip.toNat)
      (fun r w' => w' = w ∧ (a ∈ tree.chain t → r.1 = evtStatusHandled ∧
          r.2 + 1 = (tree.upTo t a).length) ∧
        (a ∉ tree.chain t → r.1 = evtStatusIgnored)) E w := by
  have hpos := tree.length_chain t
  have htop : ip.toNat < (tree.chain t).length := by omega
  refine wp_mono (wp_searchPath_finds hpath hlen a _ ip htop w) ?_ (fun _ _ he => he)
  rintro r w' ⟨hw', ⟨k, hk, hr⟩ | ⟨hnone, hr⟩⟩
  · have hmem : a ∈ tree.chain t := List.mem_of_getElem? hk
    have hdepth := tree.depth_of_getElem?_chain hk
    have hlength := tree.length_upTo hmem
    refine ⟨hw', fun _ => ⟨by rw [hr], ?_⟩, fun hout => absurd hmem hout⟩
    rw [hr]
    dsimp only
    omega
  · refine ⟨hw', fun hmem => ?_, fun _ => by rw [hr]⟩
    obtain ⟨k, hk⟩ := List.getElem?_of_mem hmem
    have hlt := (List.getElem?_eq_some_iff.mp hk).1
    exact absurd hk (hnone k (by omega))

end Steps

/-! ### The loops of the transition -/

/-- What `hsm_tran` is called with: `path` names the source and the target of a transition
between states that know their machine and whose exit actions report success. -/
structure TranSetting (ch : Chart S) (tree : ParentTree S) (w : Hsm S) (path : Path S)
    (s t : S) : Prop where
  follows : Follows ch tree
  exits : ∀ u, u ≠ tree.root → ch.exitAction u = evtStatusHandled
  known : ∀ u, u ≠ tree.root → w.hsm u = .machine
  source : path 2 = some s
  target : path 0 = some t
  source_ne_root : s ≠ tree.root
  target_ne_root : t ≠ tree.root

/-- The outcome `(iq, ip, path)` of the climb from `u`: the states up to the source or the
root are stored, and `ip` is the index of the last of them that may have to be entered. -/
structure Climbed (tree : ParentTree S) (s u : S) (stored : List S) (w : Hsm S)
    (r : Int × Int × Path S) (w' : Hsm S) : Prop where
  holds : PathHolds r.2.2 (stored ++ climbStates tree s u)
  met : r.1 = if s ∈ tree.chain u then 1 else 0
  index : r.2.1 + 1 + r.1 = (stored ++ climbStates tree s u).length
  exited : Exited w w' []

lemma Climbed.of_parent {tree : ParentTree S} {s u : S} {stored : List S} {w w₁ w' : Hsm S}
    {r : Int × Int × Path S} (hu : u ≠ tree.root) (hs : u ≠ s) (hw : Exited w w₁ [])
    (h : Climbed tree s (tree.parent u) (stored ++ [u]) w₁ r w') :
    Climbed tree s u stored w r w' := by
  have hlist : stored ++ [u] ++ climbStates tree s (tree.parent u) =
      stored ++ climbStates tree s u := by
    rw [List.append_assoc, List.singleton_append, ← climbStates_cons tree hu hs]
  refine ⟨hlist ▸ h.holds, ?_, hlist ▸ h.index, hw.trans h.exited⟩
  rw [h.met, tree.chain_of_ne_root hu]
  exact if_congr (by simp [Ne.symm hs]) rfl rfl

/-- The outcome of `hsm_tran` for the pivot `a`: the source was exited up to it, and the
entry path leads from below it down to the target. -/
structure TranOutcome (tree : ParentTree S) (s t a : S) (w : Hsm S) (r : Int × Path S)
    (w' : Hsm S) : Prop where
  exited : Exited w w' (tree.upTo s a)
  holds : PathHolds r.2 (tree.upTo t a)
  index : r.1 + 1 = (tree.upTo t a).length

section Climb

variable {ch : Chart S} {s u : S} {fuel : Nat} {ip : Int} {path : Path S} {w : Hsm S}
  {Q : Int × Int × Path S → Hsm S → Prop} {E : Fault → Hsm S → Prop}

lemma wp_climbTarget_stops {status iq : Int} (hstatus : status ≠ evtStatusSuper)
    (hfuel : fuel = 0 → E .outOfFuel w) (hQ : Q (iq, ip, path) w) :
    wp (climbTarget ch s fuel status iq ip path) Q E w := by
  cases fuel with
  | zero => exact hfuel rfl
  | succ n =>
    unfold climbTarget
    rw [if_neg hstatus]
    exact hQ

lemma wp_climbTarget_round {k : Nat} (hip : ip + 1 = k) (hk : (k : Int) < hsmMaxNestDepth)
    (hnext : w.nextState = u)
    (hmeet : u = s → wp (climbTarget ch s fuel evtStatusHandled 1 ip
      (Function.update path k (some u))) Q E w)
    (hclimb : u ≠ s → wp (do
      let status ← getSuperState ch u
      climbTarget ch s fuel status 0 (ip + 1) (Function.update path k (some u))) Q E w) :
    wp (climbTarget ch s (fuel + 1) evtStatusSuper 0 ip path) Q E w := by
  unfold climbTarget
  rw [if_pos rfl, wp_bind, wp_get, hnext, wp_bind]
  refine wp_pathSet_of hip hk ?_
  split
  case isTrue hs =>
    rw [if_neg (by omega), Int.add_sub_cancel]
    exact hmeet hs
  case isFalse hs => exact hclimb hs

lemma wp_climbTarget_meets {tree : ParentTree S} {stored : List S} (hs : u = s)
    (hnext : w.nextState = u) (hpath : PathHolds path stored) (hip : ip + 1 = stored.length)
    (hfit : ((stored ++ climbStates tree s u).length : Int) ≤ hsmMaxNestDepth) :
    wp (climbTarget ch s fuel evtStatusSuper 0 ip path) (Climbed tree s u stored w)
      (fun e _ => e = .outOfFuel ∧ fuel ≤ tree.depth u + 1) w := by
  subst hs
  rw [climbStates_self, List.length_append, List.length_singleton] at hfit
  cases fuel with
  | zero => exact ⟨rfl, by omega⟩
  | succ n =>
    apply wp_climbTarget_round hip (by omega) hnext
    · intro _
      apply wp_climbTarget_stops (by decide) (fun hn => ⟨rfl, by omega⟩)
      refine ⟨?_, (if_pos (tree.mem_chain_self u)).symm, ?_, Exited.refl w⟩
      · rw [climbStates_self]
        exact hpath.push u
      · rw [climbStates_self, List.length_append, List.length_singleton]
        dsimp only
        omega
    · exact fun hs => absurd rfl hs

end Climb

section Loops

variable {ch : Chart S} {tree : ParentTree S} (hf : Follows ch tree)
include hf

/-- The climb stores the states above the target behind those it has stored, and says
whether it met the source. -/
lemma wp_climbTarget_stores {s u : S} (stored : List S) {fuel : Nat} {ip : Int} {path : Path S}
    {w : Hsm S} (hknown : ∀ v, v ≠ tree.root → w.hsm v = .machine) (hnext : w.nextState = u)
    (hpath : PathHolds path stored) (hip : ip + 1 = stored.length)
    (hfit : ((stored ++ climbStates tree s u).length : Int) ≤ hsmMaxNestDepth) :
    wp (climbTarget ch s fuel evtStatusSuper 0 ip path) (Climbed tree s u stored w)
      (fun e _ => e = .outOfFuel ∧ fuel ≤ tree.depth u + 1) w := by
  induction u using tree.rec_parent generalizing stored fuel ip path w with
  | hroot =>
    by_cases hs : tree.root = s
    · exact wp_climbTarget_meets hs hnext hpath hip hfit
    · rw [climbStates_root, List.length_append, List.length_singleton] at hfit
      cases fuel with
      | zero => exact ⟨rfl, by omega⟩
      | succ n =>
        apply wp_climbTarget_round hip (by omega) hnext (fun h => absurd h hs)
        intro _
        apply wp_seq (wp_ask_root hf w)
        rintro status w₁ ⟨rfl, hw₁⟩
        apply wp_climbTarget_stops (by decide) (fun hn => ⟨rfl, by omega⟩)
        refine ⟨?_, ?_, ?_, hw₁⟩
        · rw [climbStates_root]
          exact hpath.push tree.root
        · rw [tree.chain_root, if_neg (fun h => hs (List.mem_singleton.mp h).symm)]
        · rw [climbStates_root, List.length_append, List.length_singleton]
          dsimp only
          omega
  | hparent u hu ih =>
    by_cases hs : u = s
    · exact wp_climbTarget_meets hs hnext hpath hip hfit
    · have hd := tree.depth_parent u hu
      rw [climbStates_cons tree hu hs, ← List.singleton_append, ← List.append_assoc] at hfit
      cases fuel with
      | zero => exact ⟨rfl, by omega⟩
      | succ n =>
        have hpush : (stored ++ [u]).length = stored.length + 1 := by
          rw [List.length_append, List.length_singleton]
        have hroom : (stored.length : Int) < hsmMaxNestDepth := by
          rw [List.length_append] at hfit
          omega
        apply wp_climbTarget_round hip hroom hnext (fun h => absurd h hs)
        intro _
        apply wp_seq (wp_ask_super hf hu (hknown u hu))
        rintro status w₁ ⟨rfl, hnext₁, hw₁⟩
        exact wp_mono (ih (stored ++ [u]) (hw₁.known hknown) hnext₁ (hpath.push u) (by omega) hfit)
          (fun _ _ hr => Climbed.of_parent hu hs hw₁ hr) (fun _ _ he => ⟨he.1, by omega⟩)

/-- With the chain of the target stored, case (g) exits the states from `u` up to the first
one that is above the target. -/
lemma wp_exitSource_exits (hexits : ∀ v, v ≠ tree.root → ch.exitAction v = evtStatusHandled)
    {t : S} {path : Path S} (hpath : PathHolds path (tree.chain t))
    (hlen : ((tree.chain t).length : Int) ≤ hsmMaxNestDepth) {ip : Int}
    (hip : ip + 1 = (tree.chain t).length) {u : S} (hu : u ∉ tree.chain t) {fuel : Nat} {w : Hsm S}
    (hknown : ∀ v, v ≠ tree.root → w.hsm v = .machine) :
    wp (exitSource ch path ip fuel u)
      (fun r w' => Exited w w' (tree.upTo u (tree.lca u t)) ∧
        r + 1 = (tree.upTo t (tree.lca u t)).length)
      (fun e _ => e = .outOfFuel ∧ fuel < tree.depth u) w := by
  induction u using tree.rec_parent generalizing fuel w with
  | hroot => exact absurd (tree.root_mem_chain t) hu
  | hparent u hroot ih =>
    have hd := tree.depth_parent u hroot
    cases fuel with
    | zero => exact ⟨rfl, by omega⟩
    | succ n =>
      have hne : u ≠ tree.lca u t := fun h => hu (h ▸ tree.lca_mem_chain_right u t)
      have hcons := tree.upTo_cons hroot hne
      rw [tree.lca_of_not_mem hu] at hcons ⊢
      unfold exitSource exitAndClimb
      rw [bind_assoc]
      apply wp_seq (wp_exit_state hf hroot w)
      rintro status w₁ ⟨rfl, -, hw₁⟩
      have hknown₁ := hw₁.known hknown
      rw [if_pos (hexits u hroot), bind_assoc]
      apply wp_seq (wp_ask_super hf hroot (hknown₁ u hroot))
      rintro _ w₂ ⟨-, hnext, hw₂⟩
      have hw₂' : Exited w w₂ [u] := hw₁.trans hw₂
      rw [pure_bind, wp_bind, wp_get, hnext]
      apply wp_seq (wp_searchPath_chain hpath hlen (tree.parent u) hip w₂)
      rintro found w₃ ⟨rfl, hfound, hmissed⟩
      by_cases hmem : tree.parent u ∈ tree.chain t
      · obtain ⟨hstatus, hindex⟩ := hfound hmem
        rw [tree.lca_of_mem hmem] at hcons ⊢
        rw [if_neg (not_not.mpr hstatus), hcons, tree.upTo_self]
        exact ⟨hw₂', hindex⟩
      · rw [if_pos (by rw [hmissed hmem]; decide), hcons]
        refine wp_mono (ih hmem (hw₂.known hknown₁)) ?_ (fun _ _ he => ⟨he.1, by omega⟩)
        rintro r w' ⟨hw', hr⟩
        exact ⟨hw₂'.trans hw', hr⟩

lemma wp_climb_from_target {s t : S} (hs : s ≠ tree.root) (ht : t ≠ tree.root) (hst : t ≠ s)
    (hpt : tree.parent t ≠ s) {fuel : Nat} {path : Path S} {w : Hsm S}
    (hknown : ∀ v, v ≠ tree.root → w.hsm v = .machine)
    (hpath : PathHolds path [t, tree.parent t])
    (hfit : ((climbStates tree s t).length : Int) ≤ hsmMaxNestDepth) :
    wp (do
        let status ← getSuperState ch (tree.parent t)
        climbTarget ch s fuel status 0 1 path) (Climbed tree s t [] w)
      (fun e _ => e = .outOfFuel ∧ fuel ≤ tree.depth t) w := by
  have hd := tree.depth_parent t ht
  by_cases hroot : tree.parent t = tree.root
  · rw [hroot] at hpath ⊢
    apply wp_seq (wp_ask_root hf w)
    rintro status w₁ ⟨rfl, hw₁⟩
    apply wp_climbTarget_stops (by decide) (fun hn => ⟨rfl, by omega⟩)
    refine Climbed.of_parent ht hst hw₁ ?_
    rw [hroot]
    refine ⟨?_, ?_, ?_, Exited.refl w₁⟩
    · rw [climbStates_root]
      exact hpath
    · rw [tree.chain_root, if_neg (fun h => hs (List.mem_singleton.mp h))]
    · rw [climbStates_root]
      rfl
  · have hd' := tree.depth_parent _ hroot
    rw [climbStates_cons tree ht hst, climbStates_cons tree hroot hpt] at hfit
    apply wp_seq (wp_ask_super hf hroot (hknown _ hroot))
    rintro status w₁ ⟨rfl, hnext, hw₁⟩
    have hknown₁ := hw₁.known hknown
    refine wp_mono (wp_climbTarget_stores hf [t, tree.parent t] hknown₁ hnext hpath rfl hfit) ?_
      (fun _ _ he => ⟨he.1, by omega⟩)
    intro r w' hr
    exact Climbed.of_parent ht hst hw₁ (Climbed.of_parent hroot hpt (Exited.refl w₁) hr)

lemma wp_exit_to_lca (hexits : ∀ v, v ≠ tree.root → ch.exitAction v = evtStatusHandled)
    {s t : S} (hs : s ∉ tree.chain t) {path : Path S} (hpath : PathHolds path (tree.chain t))
    (hlen : ((tree.chain t).length : Int) ≤ hsmMaxNestDepth) {ip : Int}
    (hip : ip + 1 = (tree.chain t).length) {fuel : Nat} {w : Hsm S}
    (hknown : ∀ v, v ≠ tree.root → w.hsm v = .machine) :
    wp (do
        let _ ← callOnExit ch s
        let found ← searchPath (tree.parent s) path evtStatusIgnored ip ip.toNat
        if found.1 ≠ evtStatusHandled then do
          let ip ← exitSource ch path ip fuel (tree.parent s)
          pure (ip, path)
        else pure (found.2, path)) (TranOutcome tree s t (tree.lca s t) w)
      (fun e _ => e = .outOfFuel ∧ fuel < tree.depth s) w := by
  have hroot : s ≠ tree.root := fun h => hs (h ▸ tree.root_mem_chain t)
  have hd := tree.depth_parent s hroot
  have hne : s ≠ tree.lca s t := fun h => hs (h ▸ tree.lca_mem_chain_right s t)
  have hinit : PathHolds path (tree.upTo t (tree.lca s t)) := by
    obtain ⟨l, hl⟩ := tree.chain_eq_upTo_append (tree.lca_mem_chain_right s t)
    rw [hl] at hpath
    exact hpath.of_append
  have hcons := tree.upTo_cons hroot hne
  rw [tree.lca_of_not_mem hs] at hcons hinit ⊢
  apply wp_seq (wp_exit_state hf hroot w)
  rintro _ w₁ ⟨-, -, hw₁⟩
  apply wp_seq (wp_searchPath_chain hpath hlen (tree.parent s) hip w₁)
  rintro found w₂ ⟨rfl, hfound, hmissed⟩
  by_cases hmem : tree.parent s ∈ tree.chain t
  · obtain ⟨hstatus, hindex⟩ := hfound hmem
    rw [tree.lca_of_mem hmem] at hcons hinit ⊢
    rw [if_neg (not_not.mpr hstatus)]
    refine ⟨?_, hinit, hindex⟩
    rw [hcons, tree.upTo_self]
    exact hw₁
  · have hknown₂ := hw₁.known hknown
    rw [if_pos (by rw [hmissed hmem]; decide), wp_bind]
    refine wp_mono (wp_exitSource_exits hf hexits hpath hlen hip hmem hknown₂) ?_
      (fun _ _ he => ⟨he.1, by omega⟩)
    rintro ip' w' ⟨hw', hindex⟩
    refine ⟨?_, hinit, hindex⟩
    rw [hcons]
    exact hw₁.trans hw'

lemma wp_hsmTranRest_outcome
    (hexits : ∀ v, v ≠ tree.root → ch.exitAction v = evtStatusHandled) {s t : S}
    (hs : s ≠ tree.root) (ht : t ≠ tree.root) (hst : t ≠ s) (hpt : tree.parent t ≠ s)
    {fuel : Nat} {path : Path S} (htarget : path 0 = some t) {w : Hsm S}
    (hnext : w.nextState = tree.parent s)
    (hknown : ∀ v, v ≠ tree.root → w.hsm v = .machine)
    (hfit : ((climbStates tree s t).length : Int) ≤ hsmMaxNestDepth) :
    wp (hsmTranRest ch fuel path s (tree.parent t)) (TranOutcome tree s t (tree.lca s t) w)
      (fun e _ => e = .outOfFuel ∧ fuel ≤ tree.depth s + tree.depth t) w := by
  have hpath : PathHolds (Function.update path 1 (some (tree.parent t))) [t, tree.parent t] :=
    (pathHolds_singleton htarget).push (tree.parent t)
  unfold hsmTranRest
  rw [wp_bind]
  refine wp_pathSet_of (n := 1) rfl (by decide) ?_
  rw [wp_bind, wp_get, hnext, wp_bind]
  refine wp_pathGet_of (n := 1) rfl (by decide) (Function.update_self ..) ?_
  rw [← bind_assoc]
  apply wp_seq (wp_mono (wp_climb_from_target hf hs ht hst hpt hknown hpath hfit)
    (fun _ _ hr => hr) (fun _ _ he => ⟨he.1, by omega⟩))
  rintro ⟨iq, ip, path'⟩ w₁ ⟨hholds, hmet, hindex, hw₁⟩
  rw [List.nil_append] at hholds hindex
  dsimp only at hholds hmet hindex ⊢
  by_cases hmem : s ∈ tree.chain t
  · rw [if_pos hmem] at hmet
    rw [climbStates_of_mem tree hmem] at hholds hindex
    rw [List.length_append, List.length_singleton] at hindex
    rw [if_neg (by omega)]
    rw [tree.lca_of_mem hmem]
    refine ⟨?_, hholds.of_append, ?_⟩
    · rw [tree.upTo_self]
      exact hw₁
    · dsimp only
      omega
  · rw [if_neg hmem] at hmet
    rw [climbStates_of_not_mem tree hmem] at hfit hholds hindex
    rw [if_pos hmet, if_neg (by omega)]
    have hknown₁ := hw₁.known hknown
    refine wp_mono (wp_exit_to_lca hf hexits hmem hholds hfit (by omega) hknown₁) ?_
      (fun _ _ he => ⟨he.1, by omega⟩)
    intro r w' hr
    exact ⟨hw₁.trans hr.exited, hr.holds, hr.index⟩

end Loops

section Transition

variable {ch : Chart S} {tree : ParentTree S} {w : Hsm S} {path : Path S} {s t : S}

lemma wp_hsmTran_cases (h : TranSetting ch tree w path s t) {fuel : Nat}
    {Q : Int × Path S → Hsm S → Prop} {E : Fault → Hsm S → Prop}
    (hself : s = t → ∀ w', Exited w w' [s] → Q (0, path) w')
    (hchild : s = tree.parent t → ∀ w', Exited w w' [] → Q (0, path) w')
    (hsibling : s ≠ t → tree.parent s = tree.parent t → ∀ w', Exited w w' [s] → Q (0, path) w')
    (hsuper : tree.parent s = t → ∀ w', Exited w w' [s] → Q (-1, path) w')
    (hrest : t ≠ s → tree.parent t ≠ s → tree.parent s ≠ tree.parent t → tree.parent s ≠ t →
      ∀ w', w'.nextState = tree.parent s → Exited w w' [] →
        wp (hsmTranRest ch fuel path s (tree.parent t)) Q E w') :
    wp (hsmTran ch fuel path) Q E w := by
  have hexit : ∀ {r : Int} {w₁ : Hsm S}, Exited w w₁ [] → (∀ w', Exited w w' [s] → Q (r, path) w') →
      wp (do let _ ← callOnExit ch s; pure (r, path)) Q E w₁ := by
    intro r w₁ hw₁ hQ
    apply wp_seq (wp_exit_state h.follows h.source_ne_root w₁)
    rintro _ w₂ ⟨-, -, hw₂⟩
    exact hQ w₂ (hw₁.trans hw₂)
  unfold hsmTran
  rw [wp_bind]
  refine wp_pathGet_of (n := 0) rfl (by decide) h.target ?_
  rw [wp_bind]
  refine wp_pathGet_of (n := 2) rfl (by decide) h.source ?_
  split
  case isTrue hst => exact hexit (Exited.refl w) (hself hst)
  case isFalse hst =>
    apply wp_seq (wp_ask_super h.follows h.target_ne_root (h.known t h.target_ne_root))
    rintro _ w₁ ⟨-, hnext₁, hw₁⟩
    rw [wp_bind, wp_get, hnext₁]
    dsimp only
    split
    case isTrue hpt => exact hchild hpt w₁ hw₁
    case isFalse hpt =>
      have hknown₁ := hw₁.known h.known
      apply wp_seq (wp_ask_super h.follows h.source_ne_root (hknown₁ s h.source_ne_root))
      rintro _ w₂ ⟨-, hnext₂, hw₂⟩
      have hw₂' : Exited w w₂ [] := hw₁.trans hw₂
      rw [wp_bind, wp_get, hnext₂]
      split
      case isTrue hsame => exact hexit hw₂' (hsibling hst hsame)
      case isFalse hsame =>
        split
        case isTrue hps => exact hexit hw₂' (hsuper hps)
        case isFalse hps => exact hrest (Ne.symm hst) (Ne.symm hpt) hsame hps w₂ hnext₂ hw₂'

/-- The states the climb has to store fit into `path`, or there is no climb. -/
def PathFits (tree : ParentTree S) (s t : S) : Prop :=
  ((climbStates tree s t).length : Int) ≤ hsmMaxNestDepth ∨
    tree.parent s = tree.parent t ∨ tree.parent s = t

lemma pathFits_of_depth (hdepth : (tree.depth t : Int) ≤ hsmMaxNestDepth - 1) :
    PathFits tree s t := by
  have hchain := tree.length_chain t
  left
  by_cases hmem : s ∈ tree.chain t
  · have hlength := tree.length_upTo hmem
    rw [climbStates_of_mem tree hmem, List.length_append, List.length_singleton]
    omega
  · rw [climbStates_of_not_mem tree hmem]
    omega

section Outcomes

variable (h : TranSetting ch tree w path s t) {w' : Hsm S}
include h

lemma TranSetting.outcome_self (hst : s = t) (hw' : Exited w w' [s]) :
    TranOutcome tree s t (transitionPivot tree s t) w (0, path) w' := by
  have hup := tree.upTo_parent h.source_ne_root
  subst hst
  rw [transitionPivot, if_pos rfl]
  refine ⟨?_, ?_, ?_⟩
  · rw [hup]
    exact hw'
  · rw [hup]
    exact pathHolds_singleton h.target
  · rw [hup]
    rfl

lemma TranSetting.outcome_child (hpt : s = tree.parent t) (hw' : Exited w w' []) :
    TranOutcome tree s t (transitionPivot tree s t) w (0, path) w' := by
  have hup := tree.upTo_parent h.target_ne_root
  have hmem := tree.parent_mem_chain (tree.mem_chain_self t) h.target_ne_root
  subst hpt
  rw [transitionPivot, if_neg (tree.parent_ne_self h.target_ne_root), tree.lca_of_mem hmem]
  refine ⟨?_, ?_, ?_⟩
  · rw [tree.upTo_self]
    exact hw'
  · rw [hup]
    exact pathHolds_singleton h.target
  · rw [hup]
    rfl

lemma TranSetting.outcome_sibling (hne : s ≠ t) (hsame : tree.parent s = tree.parent t)
    (hw' : Exited w w' [s]) :
    TranOutcome tree s t (transitionPivot tree s t) w (0, path) w' := by
  have hup := tree.upTo_parent h.target_ne_root
  rw [transitionPivot, if_neg hne,
    tree.lca_of_siblings h.source_ne_root h.target_ne_root hne hsame]
  refine ⟨?_, ?_, ?_⟩
  · rw [tree.upTo_parent h.source_ne_root]
    exact hw'
  · rw [hsame, hup]
    exact pathHolds_singleton h.target
  · rw [hsame, hup]
    rfl

lemma TranSetting.outcome_super (hps : tree.parent s = t) (hw' : Exited w w' [s]) :
    TranOutcome tree s t (transitionPivot tree s t) w (-1, path) w' := by
  have hmem := tree.parent_mem_chain (tree.mem_chain_self s) h.source_ne_root
  subst hps
  rw [transitionPivot, if_neg (tree.parent_ne_self h.source_ne_root).symm,
    tree.lca_eq_of_mem_chain hmem]
  refine ⟨?_, ?_, ?_⟩
  · rw [tree.upTo_parent h.source_ne_root]
    exact hw'
  · rw [tree.upTo_self]
    exact fun i hi => absurd hi (Nat.not_lt_zero i)
  · rw [tree.upTo_self]
    rfl

end Outcomes

/-- The only way for `hsm_tran` to stop short is to be given too little fuel. -/
lemma wp_hsmTran_outcome (h : TranSetting ch tree w path s t) (hfits : PathFits tree s t)
    (fuel : Nat) :
    wp (hsmTran ch fuel path) (TranOutcome tree s t (transitionPivot tree s t) w)
      (fun e _ => e = .outOfFuel ∧ fuel ≤ tree.depth s + tree.depth t) w := by
  apply wp_hsmTran_cases h
  case hself => exact fun hst _ hw' => h.outcome_self hst hw'
  case hchild => exact fun hpt _ hw' => h.outcome_child hpt hw'
  case hsibling => exact fun hne hsame _ hw' => h.outcome_sibling hne hsame hw'
  case hsuper => exact fun hps _ hw' => h.outcome_super hps hw'
  case hrest =>
    intro hst hpt hsame hps w' hnext hw'
    have hfit := hfits.resolve_right (not_or.mpr ⟨hsame, hps⟩)
    rw [transitionPivot, if_neg (Ne.symm hst)]
    refine wp_mono (wp_hsmTranRest_outcome h.follows h.exits h.source_ne_root h.target_ne_root hst
      hpt h.target hnext (hw'.known h.known) hfit) ?_ (fun _ _ he => he)
    intro r w'' hr
    exact ⟨hw'.trans hr.exited, hr.holds, hr.index⟩

end Transition

/-- `hsm_tran` exits the source up to the pivot and returns the entry path from below the
pivot down to the target, whatever the positions of the two, if the target is at most three
levels deep. -/
theorem hsmTran_computes_lca_path (ch : Chart S) (tree : ParentTree S) (w : Hsm S) (path : Path S)
    (s t : S) (h : TranSetting ch tree w path s t)
    (hdepth : (tree.depth t : Int) ≤ hsmMaxNestDepth - 1) :
    ∃ n, ∀ fuel, n ≤ fuel → ∃ ip path' w', exec (hsmTran ch fuel path) w = (.ok (ip, path'), w') ∧
      actions w'.trace = actions w.trace ++
        (tree.upTo s (transitionPivot tree s t)).map Call.onExit ∧
      PathHolds path' (tree.upTo t (transitionPivot tree s t)) ∧
      ip + 1 = (tree.upTo t (transitionPivot tree s t)).length ∧
      (s = t → ip = 0) ∧ (t ∈ tree.chain s → s ≠ t → ip = -1) := by
  refine ⟨tree.depth s + tree.depth t + 1, fun fuel hfuel => ?_⟩
  have hwp := wp_mono (wp_hsmTran_outcome h (pathFits_of_depth hdepth) fuel) (fun _ _ hr => hr)
    (fun _ _ he => show False by omega)
  obtain ⟨⟨ip, path'⟩, w', hexec, hexited, hholds, hindex⟩ := exists_ok_of_wp hwp
  dsimp only at hholds hindex
  refine ⟨ip, path', w', hexec, hexited.exits, hholds, hindex, ?_, ?_⟩
  · intro hst
    rw [transitionPivot, if_pos hst, ← hst, tree.upTo_parent h.source_ne_root,
      List.length_singleton] at hindex
    omega
  · intro hmem hst
    rw [transitionPivot, if_neg hst, tree.lca_eq_of_mem_chain hmem, tree.upTo_self,
      List.length_nil] at hindex
    omega

/-- The entries of `path` that `hsm_tran` reads first. -/
def tranPath (s t : S) : Path S := fun i =>
  if i = 0 then some t else if i = 2 then some s else none

lemma level3_to_level1_setting :
    TranSetting (jumpChart .level3 .level1) levelTree levelMachine (tranPath .level3 .level1)
      .level3 .level1 where
  follows := jumpChart_follows .level3 .level1
  exits _ _ := rfl
  known := jumpChart_setting.known
  source := rfl
  target := rfl
  source_ne_root := by decide
  target_ne_root := by decide

/-- From `level3` to `level1` two states are exited and none is entered. -/
theorem hsmTran_level3_to_level1 :
    ∃ n, ∀ fuel, n ≤ fuel → ∃ path' w',
      exec (hsmTran (jumpChart .level3 .level1) fuel (tranPath .level3 .level1)) levelMachine =
        (.ok (-1, path'), w') ∧
      actions w'.trace = actions levelMachine.trace ++ [.onExit .level3, .onExit .level2] := by
  obtain ⟨n, hn⟩ := hsmTran_computes_lca_path (jumpChart .level3 .level1) levelTree levelMachine
    (tranPath .level3 .level1) .level3 .level1 level3_to_level1_setting (by decide)
  refine ⟨n, fun fuel hfuel => ?_⟩
  obtain ⟨ip, path', w', hexec, hact, -, -, -, hip⟩ := hn fuel hfuel
  rw [hip (by decide) (by decide)] at hexec
  exact ⟨path', w', hexec, hact⟩

end GeneralPurposeLibrary.Proofs
