import GeneralPurposeLibrary.Foundation.RingFamily
import GeneralPurposeLibrary.Klist
import GeneralPurposeLibrary.Proofs.PoolRings

/-!
# The kernel lists refine sequences

`Lists` is what the lists in memory stand for: the entries of each initialised head. Every
function has its effect on `Lists`, under the rules of its comment: an entry that is added is
on no list, one that is deleted or moved is on some list, and two lists that are joined are
not the same.
-/

namespace GeneralPurposeLibrary.Proofs
open LinkedRing

abbrev Lists := ℕ → Option (List ℕ)

/-- The lists without the entry, wherever it was. -/
def Lists.erase (lists : Lists) (entry : ℕ) : Lists :=
  fun head => (lists head).map (List.erase · entry)

def Lists.add (lists : Lists) (new head : ℕ) (insert : List ℕ → List ℕ) : Lists :=
  Function.update (Function.update lists new none) head ((lists head).map insert)

/-- The list at `list` put in front of the one at `head`. -/
def Lists.splice (lists : Lists) (list head : ℕ) : Lists :=
  Function.update (Function.update lists list none) head
    ((lists head).map ((lists list).getD [] ++ ·))

def listsAfter (lists : Lists) : KlistCall → Lists
  | .init ptr => Function.update lists ptr (some [])
  | .add new head => lists.add new head (new :: ·)
  | .addTail new head => lists.add new head (· ++ [new])
  | .del entry => lists.erase entry
  | .delInit entry => Function.update (lists.erase entry) entry (some [])
  | .move list head => (lists.erase list).add list head (list :: ·)
  | .moveTail list head => (lists.erase list).add list head (· ++ [list])
  | .splice list head => if lists list = some [] then lists else lists.splice list head
  | .spliceInit list head =>
    if lists list = some [] then lists
    else Function.update (lists.splice list head) list (some [])

def ListRule (lists : Lists) : KlistCall → Prop
  | .init ptr => Loose lists ptr
  | .add new head | .addTail new head => Loose lists new ∧ (lists head).isSome ∧ head ≠ new
  | .del entry | .delInit entry => Member lists entry
  | .move list head | .moveTail list head => Member lists list ∧ (lists head).isSome
  | .splice list head | .spliceInit list head =>
    (lists list).isSome ∧ (lists head).isSome ∧ list ≠ head

/-- Every call of the run keeps to the rules. -/
def ListRules : Lists → List KlistCall → Prop
  | _, [] => True
  | lists, call :: calls => ListRule lists call ∧ ListRules (listsAfter lists call) calls

def InMemory (nodes : Nodes ℕ) (lists : Lists) : Prop :=
  IsFamily (nextOf nodes) (prevOf nodes) lists

section Operations

variable {nodes nodes' : Nodes ℕ} {lists : Lists} {a head list : ℕ} {l m : List ℕ}

lemma inMemory_congr (h : InMemory nodes lists)
    (hsame : ∀ head l, lists head = some l → ∀ b ∈ head :: l, nodes' b = nodes b) :
    InMemory nodes' lists := by
  apply IsFamily.congr h
  intro head l hl b hb
  rw [nextOf, nextOf, prevOf, prevOf, hsame head l hl b hb]
  exact ⟨rfl, rfl⟩

lemma inMemory_initListHead (h : InMemory nodes lists) (ha : Loose lists a) :
    InMemory (initListHead nodes a) (Function.update lists a (some [])) := by
  have hfamily := IsFamily.single h ha
  simp only [InMemory, initListHead, nextOf_setNext, nextOf_setPrev, prevOf_setNext,
    prevOf_setPrev]
  exact hfamily

lemma inMemory_listAdd (h : InMemory nodes lists) (ha : Loose lists a)
    (hl : lists head = some l) (hne : head ≠ a) :
    InMemory (listAdd nodes a head) (lists.add a head (a :: ·)) := by
  have hfamily := IsFamily.insertFirst h hl ha hne
  simp only [InMemory, listAdd, _listAdd, nextOf_setNext, nextOf_setPrev, prevOf_setNext,
    prevOf_setPrev, Lists.add, hl]
  exact hfamily

lemma inMemory_listAddTail (h : InMemory nodes lists) (ha : Loose lists a)
    (hl : lists head = some l) (hne : head ≠ a) :
    InMemory (listAddTail nodes a head) (lists.add a head (· ++ [a])) := by
  have hfamily := IsFamily.append h hl ha hne
  simp only [InMemory, listAddTail, _listAdd, nextOf_setNext, nextOf_setPrev, prevOf_setNext,
    prevOf_setPrev, Lists.add, hl]
  exact hfamily

lemma inMemory_unlink (h : InMemory nodes lists) (hl : lists head = some l) (ha : a ∈ l) :
    InMemory (_listDel nodes (nodes a).prev (nodes a).next) (lists.erase a) := by
  have hfamily := IsFamily.unlink h hl ha
  simp only [InMemory, _listDel, nextOf_setNext, nextOf_setPrev, prevOf_setNext,
    prevOf_setPrev]
  exact hfamily

lemma loose_erase (h : InMemory nodes lists) (hl : lists head = some l) (ha : a ∈ l) :
    Loose (lists.erase a) a :=
  IsFamily.loose_of_unlink h hl ha

lemma inMemory_entryDel (version : ListVersion) (h : InMemory nodes lists)
    (hl : lists head = some l) (ha : a ∈ l) :
    InMemory (entryDel nodes version a) (lists.erase a) := by
  have hunlinked := inMemory_unlink h hl ha
  cases version with
  | utils => exact hunlinked
  | klist =>
    apply inMemory_congr hunlinked
    intro head' l' hl' b hb
    apply klistDel_of_ne
    rintro rfl
    have hloose := loose_erase h hl ha
    have hne : head' ≠ b := by
      rintro rfl
      obtain ⟨m, hm, _⟩ := Option.map_eq_some_iff.mp hl'
      exact IsFamily.head_ne_of_mem h hl ha hm rfl
    exact hloose.notMem hl' hne hb

lemma inMemory_listSplice_of_ne (h : InMemory nodes lists) (hm : lists list = some m)
    (hl : lists head = some l) (hne : list ≠ head) (hnil : m ≠ []) :
    InMemory (_listSplice nodes list head) (lists.splice list head) := by
  have hfamily := IsFamily.splice h hm hl hne hnil
  simp only [InMemory, _listSplice, nextOf_setNext, nextOf_setPrev, prevOf_setNext,
    prevOf_setPrev, Lists.splice, hl, hm]
  exact hfamily

lemma loose_splice (h : InMemory nodes lists) (hm : lists list = some m)
    (hl : lists head = some l) (hne : list ≠ head) : Loose (lists.splice list head) list := by
  have hloose := IsFamily.loose_of_splice h hm hl hne
  simp only [Lists.splice, hl, hm]
  exact hloose

lemma listEmpty_of_inMemory (h : InMemory nodes lists) (hl : lists head = some l) :
    listEmpty nodes head = l.isEmpty := by
  rw [Bool.eq_iff_iff, List.isEmpty_iff]
  exact OnRing.listEmpty_iff (IsFamily.ring h head l hl)

lemma inMemory_listSplice (h : InMemory nodes lists) (hm : lists list = some m)
    (hl : lists head = some l) (hne : list ≠ head) :
    InMemory (listSplice nodes list head) (listsAfter lists (.splice list head)) := by
  rw [listSplice, listEmpty_of_inMemory h hm, listsAfter, hm]
  cases m with
  | nil => exact h
  | cons a m =>
    rw [if_pos (by simp), if_neg (by simp)]
    exact inMemory_listSplice_of_ne h hm hl hne (List.cons_ne_nil a m)

lemma inMemory_listSpliceInit (h : InMemory nodes lists) (hm : lists list = some m)
    (hl : lists head = some l) (hne : list ≠ head) :
    InMemory (listSpliceInit nodes list head) (listsAfter lists (.spliceInit list head)) := by
  rw [listSpliceInit, listEmpty_of_inMemory h hm, listsAfter, hm]
  cases m with
  | nil => exact h
  | cons a m =>
    rw [if_pos (by simp), if_neg (by simp)]
    exact inMemory_initListHead
      (inMemory_listSplice_of_ne h hm hl hne (List.cons_ne_nil a m)) (loose_splice h hm hl hne)

end Operations

section Step

variable {nodes : Nodes ℕ} {lists : Lists} (version : ListVersion)

lemma erase_of_eq_some {head : ℕ} {l : List ℕ} (hl : lists head = some l) (a : ℕ) :
    lists.erase a head = some (l.erase a) := by
  rw [Lists.erase, hl]
  rfl

/-- Every call that keeps to the rules has the effect it should have. -/
lemma inMemory_klistStep (h : InMemory nodes lists) {call : KlistCall}
    (hrule : ListRule lists call) :
    InMemory (klistStep version nodes call) (listsAfter lists call) := by
  cases call with
  | init ptr => exact inMemory_initListHead h hrule
  | add new head =>
    obtain ⟨hloose, hhead, hne⟩ := hrule
    obtain ⟨l, hl⟩ := Option.isSome_iff_exists.mp hhead
    exact inMemory_listAdd h hloose hl hne
  | addTail new head =>
    obtain ⟨hloose, hhead, hne⟩ := hrule
    obtain ⟨l, hl⟩ := Option.isSome_iff_exists.mp hhead
    exact inMemory_listAddTail h hloose hl hne
  | del entry =>
    obtain ⟨head, l, hl, ha⟩ := hrule
    exact inMemory_entryDel version h hl ha
  | delInit entry =>
    obtain ⟨head, l, hl, ha⟩ := hrule
    exact inMemory_initListHead (inMemory_unlink h hl ha) (loose_erase h hl ha)
  | move list head =>
    obtain ⟨⟨head', l, hl, ha⟩, hhead⟩ := hrule
    obtain ⟨m, hm⟩ := Option.isSome_iff_exists.mp hhead
    exact inMemory_listAdd (inMemory_unlink h hl ha) (loose_erase h hl ha)
      (erase_of_eq_some hm list) (IsFamily.head_ne_of_mem h hl ha hm)
  | moveTail list head =>
    obtain ⟨⟨head', l, hl, ha⟩, hhead⟩ := hrule
    obtain ⟨m, hm⟩ := Option.isSome_iff_exists.mp hhead
    exact inMemory_listAddTail (inMemory_unlink h hl ha) (loose_erase h hl ha)
      (erase_of_eq_some hm list) (IsFamily.head_ne_of_mem h hl ha hm)
  | splice list head =>
    obtain ⟨hlist, hhead, hne⟩ := hrule
    obtain ⟨m, hm⟩ := Option.isSome_iff_exists.mp hlist
    obtain ⟨l, hl⟩ := Option.isSome_iff_exists.mp hhead
    exact inMemory_listSplice h hm hl hne
  | spliceInit list head =>
    obtain ⟨hlist, hhead, hne⟩ := hrule
    obtain ⟨m, hm⟩ := Option.isSome_iff_exists.mp hlist
    obtain ⟨l, hl⟩ := Option.isSome_iff_exists.mp hhead
    exact inMemory_listSpliceInit h hm hl hne

lemma inMemory_run (h : InMemory nodes lists) {calls : List KlistCall}
    (hrules : ListRules lists calls) :
    InMemory (calls.foldl (klistStep version) nodes) (calls.foldl listsAfter lists) := by
  induction calls generalizing nodes lists with
  | nil => exact h
  | cons call calls ih => exact ih (inMemory_klistStep version h hrules.1) hrules.2

end Step

/-! ### Iteration -/

section Iteration

variable {nodes : Nodes ℕ} {head : ℕ} {l : List ℕ}

lemma forEachLoop_of_chain {link : ListHead ℕ → ℕ} {pos fuel : ℕ}
    (hchain : (l ++ [head]).IsChain fun a b => link (nodes a) = b)
    (hpos : (l ++ [head]).head? = some pos) (hhead : head ∉ l) (hfuel : l.length < fuel) :
    forEachLoop nodes head link fuel pos = some l := by
  induction l generalizing pos fuel with
  | nil =>
    obtain ⟨fuel, rfl⟩ : ∃ k, fuel = k + 1 := ⟨fuel - 1, by omega⟩
    have hpos : head = pos := Option.some_inj.mp hpos
    simp [forEachLoop, hpos]
  | cons a l ih =>
    obtain ⟨fuel, rfl⟩ : ∃ k, fuel = k + 1 := ⟨fuel - 1, by omega⟩
    have hpos : a = pos := Option.some_inj.mp hpos
    subst hpos
    have hne : a ≠ head := fun e => hhead (by simp [e])
    have hnext : (l ++ [head]).head? = some (link (nodes a)) := by
      cases l with
      | nil => exact congrArg some hchain.rel.symm
      | cons b l => exact congrArg some hchain.rel.symm
    have hrest := ih hchain.of_cons hnext (fun hmem => hhead (List.mem_cons_of_mem a hmem))
      (Nat.lt_of_succ_lt_succ hfuel)
    rw [forEachLoop, if_neg hne, hrest]
    rfl

lemma listForEach_of_ring (h : OnRing nodes head l) {fuel : ℕ} (hfuel : l.length < fuel) :
    listForEach nodes head fuel = some l := by
  have hchain : (head :: (l ++ [head])).IsChain fun a b => (nodes a).next = b :=
    h.joined.imp fun _ _ hjoined => hjoined.1
  refine forEachLoop_of_chain hchain.of_cons ?_ h.head_notMem hfuel
  have hfirst : (nodes head).next = l.head?.getD head := h.next_head_eq
  rw [hfirst]
  cases l <;> rfl

lemma listForEachPrev_of_ring (h : OnRing nodes head l) {fuel : ℕ} (hfuel : l.length < fuel) :
    listForEachPrev nodes head fuel = some l.reverse := by
  have hback : ((head :: l) ++ [head]).reverse.IsChain fun a b => (nodes a).prev = b := by
    rw [List.isChain_reverse]
    exact h.joined.imp fun _ _ hjoined => hjoined.2
  have hchain : (head :: (l.reverse ++ [head])).IsChain fun a b => (nodes a).prev = b := by
    simpa using hback
  refine forEachLoop_of_chain hchain.of_cons ?_ (by simpa using h.head_notMem)
    (by simpa using hfuel)
  have hlast : (l.reverse ++ [head]).head? = some (nodes head).prev := by
    have hlast := h.last_joined.1
    rwa [← List.head?_reverse, List.reverse_cons] at hlast
  exact hlast

end Iteration

/-- Whatever calls are made on lists that start out uninitialised, as long as they keep to the
rules, iterating over a list gives its entries in order, from either end. -/
theorem list_calls_refine_sequences (version : ListVersion) (nodes : Nodes ℕ)
    (calls : List KlistCall) (hrules : ListRules (fun _ => none) calls) (head : ℕ) (l : List ℕ)
    (hl : calls.foldl listsAfter (fun _ => none) head = some l) (fuel : ℕ)
    (hfuel : l.length < fuel) :
    listForEach (calls.foldl (klistStep version) nodes) head fuel = some l ∧
      listForEachPrev (calls.foldl (klistStep version) nodes) head fuel = some l.reverse ∧
      listEmpty (calls.foldl (klistStep version) nodes) head = l.isEmpty := by
  have hempty : InMemory nodes fun _ => none := IsFamily.empty (nextOf nodes) (prevOf nodes)
  have hfinal := inMemory_run version hempty hrules
  have hring : OnRing (calls.foldl (klistStep version) nodes) head l := hfinal.ring head l hl
  exact ⟨listForEach_of_ring hring hfuel, listForEachPrev_of_ring hring hfuel,
    listEmpty_of_inMemory hfinal hl⟩

def sampleKlistCalls : List KlistCall :=
  [.init 1, .init 2, .add 10 1, .addTail 11 1, .add 12 2, .moveTail 10 2, .spliceInit 2 1]

lemma sampleKlistCalls_rules : ListRules (fun _ => none) sampleKlistCalls := by
  simp only [ListRules, sampleKlistCalls, ListRule, listsAfter, Loose, Member, Lists.add,
    Lists.erase, Function.update_apply]
  refine ⟨by simp, by simp, ⟨⟨?_, by simp⟩, by simp⟩, ⟨⟨?_, by simp⟩, by simp⟩,
    ⟨⟨?_, by simp⟩, by simp⟩, ⟨⟨1, [10, 11], by simp⟩, by simp⟩, by simp, trivial⟩
  all_goals
    intro head l hl
    grind

/-- Two lists, an entry moved from one to the other, and the other spliced back. -/
theorem list_calls_refine_sequences_sample :
    listForEach (sampleKlistCalls.foldl (klistStep .klist) fun _ => ⟨0, 0⟩) 1 4 =
      some [12, 10, 11] :=
  (list_calls_refine_sequences .klist (fun _ => ⟨0, 0⟩) sampleKlistCalls sampleKlistCalls_rules 1
    [12, 10, 11] (by decide) 4 (by decide)).1

end GeneralPurposeLibrary.Proofs
