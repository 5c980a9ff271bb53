import GeneralPurposeLibrary.Proofs.MkdirTokens

/-!
# The chain of directories that `fs_mkdirs` builds

Entering a segment either finds a directory or creates it, and whatever fails on the way, only
entries of the chain are added, from the root on. A call that returns 0 leaves a chain of
directories, on which a further call finds nothing to do.
-/

namespace GeneralPurposeLibrary.Proofs
open PathTree SeparatedText

lemma neg_failure_ne_zero (e : CallFailure) : -e.val ≠ 0 := by
  intro h
  have hzero : e.val = 0 := by
    have hneg := congrArg Neg.neg h
    rwa [Int32.neg_neg] at hneg
  have hpos := e.property.1
  rw [hzero] at hpos
  exact absurd hpos (by decide)

/-! ### The system calls -/

/-- The directories that `fs_mkdirs` creates. -/
def newDirectory (env : FsCalls) (mode : UInt32) : FsNode := .directory (mode &&& ~~~env.umask)

section Calls

variable {env : FsCalls} {fd : List FileName} {name : FileName} {s : FsState}

lemma attempt_of_some {α : Type} {call : FsTree → FsTree × Except Int32 α} {e : CallFailure}
    (h : env.fails s.calls = some e) :
    env.attempt s call = (⟨s.tree, s.calls + 1⟩, .error e.val) := by
  rw [FsCalls.attempt, h]

lemma attempt_of_none {α : Type} {call : FsTree → FsTree × Except Int32 α}
    (h : env.fails s.calls = none) :
    env.attempt s call = (⟨(call s.tree).1, s.calls + 1⟩, (call s.tree).2) := by
  rw [FsCalls.attempt, h]

lemma fstatat_of_some (hfails : env.fails s.calls = none) (hfd : IsInner s.tree fd) {node : FsNode}
    (hnode : s.tree.node (fd ++ [name]) = some node) :
    env.fstatat fd name s = (⟨s.tree, s.calls + 1⟩, .ok node) := by
  rw [FsCalls.fstatat, attempt_of_none hfails, if_pos hfd, hnode]

lemma fstatat_of_none (hfails : env.fails s.calls = none) (hfd : IsInner s.tree fd)
    (hnode : s.tree.node (fd ++ [name]) = none) :
    env.fstatat fd name s = (⟨s.tree, s.calls + 1⟩, .error enoent) := by
  rw [FsCalls.fstatat, attempt_of_none hfails, if_pos hfd, hnode]

lemma mkdirat_of_none (mode : UInt32) (hfails : env.fails s.calls = none)
    (hfd : IsInner s.tree fd) (hnew : s.tree.node (fd ++ [name]) = none) :
    env.mkdirat fd name mode s =
      (⟨add s.tree fd name (newDirectory env mode) hfd hnew, s.calls + 1⟩, .ok ()) := by
  rw [FsCalls.mkdirat, attempt_of_none hfails, dif_pos hfd, dif_pos hnew]
  rfl

lemma exists_directory_of_isInner {tree : FsTree} {path : List FileName}
    (h : IsInner tree path) : ∃ m, tree.node path = some (.directory m) := by
  obtain ⟨node, hnode⟩ := Option.isSome_iff_exists.mp (isSome_of_isInner h)
  unfold IsInner at h
  rw [hnode] at h
  cases node with
  | directory m => exact ⟨m, hnode⟩
  | file bytes => cases h
  | symlink target => cases h

lemma openat_of_isInner (hfails : env.fails s.calls = none) (hfd : IsInner s.tree fd)
    (hdir : IsInner s.tree (fd ++ [name])) :
    env.openat fd name s = (⟨s.tree, s.calls + 1⟩, .ok (fd ++ [name])) := by
  obtain ⟨m, hnode⟩ := exists_directory_of_isInner hdir
  rw [FsCalls.openat, attempt_of_none hfails, if_pos hfd, hnode]

lemma fstatat_cases (env : FsCalls) (name : FileName) (hfd : IsInner s.tree fd) :
    (∃ e : CallFailure, env.fstatat fd name s = (⟨s.tree, s.calls + 1⟩, .error e.val)) ∨
      (s.tree.node (fd ++ [name]) = none ∧
        env.fstatat fd name s = (⟨s.tree, s.calls + 1⟩, .error enoent)) ∨
      ∃ node, s.tree.node (fd ++ [name]) = some node ∧
        env.fstatat fd name s = (⟨s.tree, s.calls + 1⟩, .ok node) := by
  cases hfails : env.fails s.calls with
  | some e => exact Or.inl ⟨e, attempt_of_some hfails⟩
  | none =>
    right
    cases hnode : s.tree.node (fd ++ [name]) with
    | none => exact Or.inl ⟨rfl, fstatat_of_none hfails hfd hnode⟩
    | some node => exact Or.inr ⟨node, rfl, fstatat_of_some hfails hfd hnode⟩

lemma mkdirat_cases (env : FsCalls) (mode : UInt32) (hfd : IsInner s.tree fd)
    (hnew : s.tree.node (fd ++ [name]) = none) :
    (∃ e : CallFailure, env.mkdirat fd name mode s = (⟨s.tree, s.calls + 1⟩, .error e.val)) ∨
      env.mkdirat fd name mode s =
        (⟨add s.tree fd name (newDirectory env mode) hfd hnew, s.calls + 1⟩, .ok ()) := by
  cases hfails : env.fails s.calls with
  | some e => exact Or.inl ⟨e, attempt_of_some hfails⟩
  | none => exact Or.inr (mkdirat_of_none mode hfails hfd hnew)

lemma openat_cases (env : FsCalls) (hfd : IsInner s.tree fd)
    (hdir : IsInner s.tree (fd ++ [name])) :
    (∃ e : CallFailure, env.openat fd name s = (⟨s.tree, s.calls + 1⟩, .error e.val)) ∨
      env.openat fd name s = (⟨s.tree, s.calls + 1⟩, .ok (fd ++ [name])) := by
  cases hfails : env.fails s.calls with
  | some e => exact Or.inl ⟨e, attempt_of_some hfails⟩
  | none => exact Or.inr (openat_of_isInner hfails hfd hdir)

lemma stepInto_cases (env : FsCalls) (hfd : IsInner s.tree fd)
    (hdir : IsInner s.tree (fd ++ [name])) :
    (∃ res, res ≠ 0 ∧ stepInto env fd name s = (⟨s.tree, s.calls + 1⟩, .error res)) ∨
      stepInto env fd name s = (⟨s.tree, s.calls + 1⟩, .ok (fd ++ [name])) := by
  unfold stepInto
  rcases openat_cases env hfd hdir with ⟨e, h⟩ | h
  · rw [h]
    exact Or.inl ⟨-e.val, neg_failure_ne_zero e, rfl⟩
  · rw [h]
    exact Or.inr rfl

end Calls

/-! ### One segment -/

/-- A name that may be a directory of the chain. -/
def ValidName (name : FileName) : Prop := ¬(name = dotDot ∨ name = dot ∨ name = [])

section Segment

variable {env : FsCalls} {mode : UInt32} {fd : List FileName} {name : FileName} {s : FsState}

/-- What entering a segment leaves: at most that segment is created, and a successful step
leads into a directory of a valid name. -/
def Entered (env : FsCalls) (mode : UInt32) (fd : List FileName) (name : FileName)
    (tree : FsTree) : FsState × Except Int32 (List FileName) → Prop
  | (s', .error res) =>
    res ≠ 0 ∧ ∃ made, made <+: [name] ∧ Grown tree s'.tree (fd ++ made) (newDirectory env mode)
  | (s', .ok nextFd) =>
    ValidName name ∧ nextFd = fd ++ [name] ∧ IsInner s'.tree (fd ++ [name]) ∧
      Grown tree s'.tree (fd ++ [name]) (newDirectory env mode)

lemma entered_unchanged (hfd : IsInner s.tree fd) {calls : ℕ} {res : Int32} (hres : res ≠ 0) :
    Entered env mode fd name s.tree (⟨s.tree, calls⟩, .error res) := by
  refine ⟨hres, [], List.nil_prefix, ?_⟩
  rw [List.append_nil]
  exact grown_refl (isSome_of_isInner hfd)

lemma entered_stepInto {tree : FsTree} (hname : ValidName name) (hfd : IsInner s.tree fd)
    (hdir : IsInner s.tree (fd ++ [name]))
    (hgrown : Grown tree s.tree (fd ++ [name]) (newDirectory env mode)) :
    Entered env mode fd name tree (stepInto env fd name s) := by
  rcases stepInto_cases env hfd hdir with ⟨res, hres, h⟩ | h
  · rw [h]
    exact ⟨hres, [name], List.prefix_refl _, hgrown⟩
  · rw [h]
    exact ⟨hname, rfl, hdir, hgrown⟩

lemma isInner_add (env : FsCalls) (mode : UInt32) {tree : FsTree} (hfd : IsInner tree fd)
    (hnew : tree.node (fd ++ [name]) = none) :
    IsInner (add tree fd name (newDirectory env mode) hfd hnew) (fd ++ [name]) := by
  have hnode : (add tree fd name (newDirectory env mode) hfd hnew).node (fd ++ [name]) =
      some (newDirectory env mode) := Function.update_self _ _ _
  unfold IsInner
  rw [hnode]
  rfl

/-- Entering a segment, from any state and whatever fails. -/
theorem enterSegment_entered (env : FsCalls) (mode : UInt32) (name : FileName)
    (hfd : IsInner s.tree fd) :
    Entered env mode fd name s.tree (enterSegment env mode fd name s) := by
  by_cases hname : name = dotDot ∨ name = dot ∨ name = []
  · rw [enterSegment, if_pos hname]
    exact entered_unchanged hfd (by decide)
  · rw [enterSegment, if_neg hname]
    rcases fstatat_cases env name hfd with ⟨e, h⟩ | ⟨hnew, h⟩ | ⟨node, hnode, h⟩
    · rw [h]
      simp only
      rw [if_neg e.property.2.1]
      exact entered_unchanged hfd (neg_failure_ne_zero e)
    · rw [h]
      simp only [if_true]
      rcases mkdirat_cases env mode (s := ⟨s.tree, s.calls + 1⟩) hfd hnew with ⟨e, h'⟩ | h'
      · rw [h']
        simp only
        rw [if_neg e.property.2.2]
        exact entered_unchanged hfd (neg_failure_ne_zero e)
      · rw [h']
        have hgrown : Grown s.tree (add s.tree fd name (newDirectory env mode) hfd hnew)
            (fd ++ [name]) (newDirectory env mode) := grown_add hfd hnew
        exact entered_stepInto hname (hgrown.isInner hfd) (isInner_add env mode hfd hnew) hgrown
    · rw [h]
      have hsome : (s.tree.node (fd ++ [name])).isSome = true := by
        rw [hnode]
        rfl
      cases node with
      | directory m =>
        have hdir : IsInner s.tree (fd ++ [name]) := by
          unfold IsInner
          rw [hnode]
          rfl
        exact entered_stepInto hname hfd hdir (grown_refl hsome)
      | file bytes => exact entered_unchanged hfd (by decide)
      | symlink target => exact entered_unchanged hfd (by decide)

end Segment

/-! ### The whole chain -/

section Walk

variable {env : FsCalls} {mode : UInt32}

/-- Whatever happens, an initial part of the chain is there in the end. -/
lemma walk_grown (env : FsCalls) (mode : UInt32) (names : List FileName) {fd : List FileName}
    {s : FsState} (hfd : IsInner s.tree fd) :
    ∃ made, made <+: names ∧
      Grown s.tree (walk env mode fd s names).1.tree (fd ++ made) (newDirectory env mode) := by
  induction names generalizing fd s with
  | nil =>
    refine ⟨[], List.prefix_refl _, ?_⟩
    rw [List.append_nil]
    exact grown_refl (isSome_of_isInner hfd)
  | cons name names ih =>
    have hentered := enterSegment_entered env mode name hfd
    rw [walk]
    cases hstep : enterSegment env mode fd name s with
    | mk s₁ outcome =>
      rw [hstep] at hentered
      cases outcome with
      | error res =>
        obtain ⟨-, made, hmade, hgrown⟩ := hentered
        exact ⟨made, hmade.trans (List.prefix_append [name] names), hgrown⟩
      | ok nextFd =>
        obtain ⟨-, rfl, hinner, hgrown⟩ := hentered
        obtain ⟨made, hmade, hrest⟩ := ih hinner
        refine ⟨name :: made, List.cons_prefix_cons.mpr ⟨rfl, hmade⟩, ?_⟩
        have hchain : fd ++ name :: made = fd ++ [name] ++ made := List.append_cons fd name made
        rw [hchain]
        exact hgrown.trans hrest (List.prefix_append _ _)

lemma walk_zero {names : List FileName} {fd : List FileName} {s : FsState}
    (hfd : IsInner s.tree fd) (hzero : (walk env mode fd s names).2 = 0) :
    (∀ name ∈ names, ValidName name) ∧
      ∀ chain, chain <+: names → IsInner (walk env mode fd s names).1.tree (fd ++ chain) := by
  induction names generalizing fd s with
  | nil =>
    refine ⟨fun name h => absurd h List.not_mem_nil, ?_⟩
    intro chain hchain
    rw [List.prefix_nil.mp hchain, List.append_nil]
    exact hfd
  | cons name names ih =>
    have hentered := enterSegment_entered env mode name hfd
    obtain ⟨made, -, hgrownAll⟩ := walk_grown env mode (name :: names) hfd
    have hfd' := hgrownAll.isInner hfd
    rw [walk] at hzero hfd' ⊢
    cases hstep : enterSegment env mode fd name s with
    | mk s₁ outcome =>
      rw [hstep] at hentered hzero hfd'
      cases outcome with
      | error res => exact absurd hzero hentered.1
      | ok nextFd =>
        obtain ⟨hname, rfl, hinner, -⟩ := hentered
        obtain ⟨hnames, hchain⟩ := ih hinner hzero
        refine ⟨?_, ?_⟩
        · intro other hother
          rcases List.mem_cons.mp hother with rfl | hother
          · exact hname
          · exact hnames other hother
        · intro chain hinit
          cases chain with
          | nil =>
            rw [List.append_nil]
            exact hfd'
          | cons first chain =>
            obtain ⟨rfl, hrest⟩ := List.cons_prefix_cons.mp hinit
            have hsplit : fd ++ first :: chain = fd ++ [first] ++ chain :=
              List.append_cons fd first chain
            rw [hsplit]
            exact hchain chain hrest

end Walk

/-! ### Calls that do not fail -/

section Quiet

variable {env : FsCalls} {mode : UInt32} {fd : List FileName} {name : FileName} {s : FsState}

lemma enterSegment_quiet (mode : UInt32) (hquiet : ∀ n, env.fails n = none) (hname : ValidName name)
    (hfd : IsInner s.tree fd) (hdir : IsInner s.tree (fd ++ [name])) :
    enterSegment env mode fd name s = (⟨s.tree, s.calls + 2⟩, .ok (fd ++ [name])) := by
  obtain ⟨m, hnode⟩ := exists_directory_of_isInner hdir
  have hopen := openat_of_isInner (s := ⟨s.tree, s.calls + 1⟩) (hquiet _) hfd hdir
  rw [enterSegment, if_neg hname, fstatat_of_some (hquiet _) hfd hnode]
  simp only
  rw [stepInto, hopen]

lemma walk_quiet (mode : UInt32) (fd : List FileName) (s : FsState)
    (hquiet : ∀ n, env.fails n = none) {names : List FileName}
    (hnames : ∀ name ∈ names, ValidName name)
    (hchain : ∀ chain, chain <+: names → IsInner s.tree (fd ++ chain)) :
    (walk env mode fd s names).2 = 0 ∧ (walk env mode fd s names).1.tree = s.tree := by
  induction names generalizing fd s with
  | nil => exact ⟨rfl, rfl⟩
  | cons name names ih =>
    have hfd : IsInner s.tree fd := by
      have hroot := hchain [] List.nil_prefix
      rwa [List.append_nil] at hroot
    have hdir := hchain [name] (List.prefix_append [name] names)
    rw [walk, enterSegment_quiet mode hquiet (hnames name List.mem_cons_self) hfd hdir]
    refine ih _ _ (fun other h => hnames other (List.mem_cons_of_mem _ h)) ?_
    intro chain hinit
    rw [← List.append_cons]
    exact hchain (name :: chain) (List.cons_prefix_cons.mpr ⟨rfl, hinit⟩)

end Quiet

/-! ### The call as a whole -/

section Call

variable {env : FsCalls} {mode : UInt32} {tree : FsTree} {names : List FileName}

lemma openRoot_cases (env : FsCalls) (tree : FsTree) :
    (∃ e : CallFailure, env.openRoot ⟨tree, 0⟩ = (⟨tree, 1⟩, .error e.val)) ∨
      env.openRoot ⟨tree, 0⟩ = (⟨tree, 1⟩, .ok []) := by
  unfold FsCalls.openRoot
  cases hfails : env.fails 0 with
  | some e => exact Or.inl ⟨e, attempt_of_some hfails⟩
  | none => exact Or.inr (attempt_of_none hfails)

lemma enterAll_of_open (h : env.openRoot ⟨tree, 0⟩ = (⟨tree, 1⟩, .ok [])) :
    enterAll env mode tree names =
      ((walk env mode [] ⟨tree, 1⟩ names).2, (walk env mode [] ⟨tree, 1⟩ names).1.tree) := by
  rw [enterAll, h]

lemma enterAll_grown (env : FsCalls) (mode : UInt32) (tree : FsTree) (names : List FileName) :
    ∃ made, made <+: names ∧
      Grown tree (enterAll env mode tree names).2 made (newDirectory env mode) := by
  rcases openRoot_cases env tree with ⟨e, h⟩ | h
  · rw [enterAll, h]
    exact ⟨[], List.nil_prefix, grown_refl (isSome_of_isInner tree.root)⟩
  · rw [enterAll_of_open h]
    exact walk_grown env mode names (s := ⟨tree, 1⟩) tree.root

lemma enterAll_zero (h : (enterAll env mode tree names).1 = 0) :
    (∀ name ∈ names, ValidName name) ∧
      ∀ chain, chain <+: names → IsInner (enterAll env mode tree names).2 chain := by
  rcases openRoot_cases env tree with ⟨e, hopen⟩ | hopen
  · rw [enterAll, hopen] at h
    exact absurd h (neg_failure_ne_zero e)
  · rw [enterAll_of_open hopen] at h ⊢
    exact walk_zero (s := ⟨tree, 1⟩) tree.root h

lemma enterAll_quiet (hquiet : ∀ n, env.fails n = none) (hnames : ∀ name ∈ names, ValidName name)
    (hchain : ∀ chain, chain <+: names → IsInner tree chain) :
    enterAll env mode tree names = (0, tree) := by
  have hopen : env.openRoot ⟨tree, 0⟩ = (⟨tree, 1⟩, .ok []) := attempt_of_none (hquiet 0)
  have hwalk := walk_quiet mode [] ⟨tree, 1⟩ hquiet hnames hchain
  rw [enterAll_of_open hopen, hwalk.1, hwalk.2]

end Call

/-- The components of an absolute path before its last slash. -/
def parentNames (path : List UInt8) : List FileName := pieces slash [] path.tail

/-- What a call made of the tree. The entries it made are what was missing of an initial part
of the chain of parents, so each of them has no other entry below it. -/
structure BuildsParents (tree tree' : FsTree) (res : Int32) (names : List FileName)
    (directory : FsNode) : Prop where
  real : res = 0 → ∀ chain, chain <+: names → IsInner tree' chain
  named : res = 0 → ∀ name ∈ names, name ≠ dot ∧ name ≠ dotDot
  kept : ∀ path node, tree.node path = some node → tree'.node path = some node
  made : ∃ made, made <+: names ∧ ∀ path, tree.node path = none →
    tree'.node path = if path <+: made then some directory else none

lemma buildsParents_enterAll (env : FsCalls) (mode : UInt32) (tree : FsTree)
    (names : List FileName) :
    BuildsParents tree (enterAll env mode tree names).2 (enterAll env mode tree names).1 names
      (newDirectory env mode) := by
  obtain ⟨made, hmade, hgrown⟩ := enterAll_grown env mode tree names
  refine ⟨fun h => (enterAll_zero h).2, ?_, fun path node h => hgrown.kept h, made, hmade, ?_⟩
  · intro h name hname
    have hvalid := (enterAll_zero h).1 name hname
    exact ⟨fun hdot => hvalid (Or.inr (Or.inl hdot)), fun hdots => hvalid (Or.inl hdots)⟩
  · intro path hnone
    rw [hgrown path, hnone]
    rfl

/-- `fs_mkdirs` ends, builds the parents of the path as far as it gets, and having returned 0
finds nothing left to do when it is called again. -/
theorem fs_mkdirs_builds_parents (env : FsCalls) (mode : UInt32) (tree : FsTree)
    (path : List UInt8) (habsolute : path.head? = some slash) (hzero : 0 ∉ path)
    (hsingle : NoDouble slash path) :
    ∃ res tree',
      (∃ n, ∀ fuel, n ≤ fuel → fsMkdirs env fuel path mode tree = some (.ok (res, tree'))) ∧
      BuildsParents tree tree' res (parentNames path) (newDirectory env mode) ∧
      (res = 0 → ∀ again : FsCalls, (∀ n, again.fails n = none) →
        ∃ n, ∀ fuel, n ≤ fuel → fsMkdirs again fuel path mode tree' = some (.ok (0, tree'))) := by
  have hnames : segments path = parentNames path := by
    obtain ⟨rest, rfl⟩ : ∃ rest, path = slash :: rest := List.head?_eq_some_iff.mp habsolute
    exact tokens_eq_pieces hsingle.of_cons
  refine ⟨(enterAll env mode tree (segments path)).1, (enterAll env mode tree (segments path)).2,
    ⟨path.length, fun fuel hfuel => fsMkdirs_eq env mode tree habsolute hzero hfuel⟩, ?_, ?_⟩
  · rw [← hnames]
    exact buildsParents_enterAll env mode tree (segments path)
  · intro hres again hquiet
    obtain ⟨hvalid, hchain⟩ := enterAll_zero hres
    refine ⟨path.length, ?_⟩
    intro fuel hfuel
    rw [fsMkdirs_eq again mode _ habsolute hzero hfuel, enterAll_quiet hquiet hvalid hchain]

/-- A tree of which only the root exists. -/
def rootOnly : FsTree where
  node := fun path => if path = [] then some (.directory 493) else none
  root := rfl
  parent := by
    intro dir name h
    rw [if_neg (List.append_ne_nil_of_right_ne_nil dir (List.cons_ne_nil name []))] at h
    cases h

/-- Every system call succeeds. -/
def quietCalls : FsCalls := ⟨18, fun _ => none⟩

theorem fs_mkdirs_builds_a :
    ∃ res tree',
      (∃ n, ∀ fuel, n ≤ fuel →
        fsMkdirs quietCalls fuel [47, 97, 47, 98] 448 rootOnly = some (.ok (res, tree'))) ∧
      BuildsParents rootOnly tree' res (parentNames [47, 97, 47, 98])
        (newDirectory quietCalls 448) ∧
      (res = 0 → ∀ again : FsCalls, (∀ n, again.fails n = none) →
        ∃ n, ∀ fuel, n ≤ fuel →
          fsMkdirs again fuel [47, 97, 47, 98] 448 tree' = some (.ok (0, tree'))) := by
  have hsingle : NoDouble slash [47, 97, 47, 98] := by
    unfold NoDouble
    decide
  exact fs_mkdirs_builds_parents quietCalls 448 rootOnly [47, 97, 47, 98] rfl (by decide) hsingle

end GeneralPurposeLibrary.Proofs
