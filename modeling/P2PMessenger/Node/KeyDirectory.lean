import P2PMessenger.Node.KeyInit
import Mathlib.Data.Set.Function
import Mathlib.Data.Fintype.Defs

/-!
# Programs in one directory

`startNode` looks for two files that are named after the id, in the directory in which the
program runs. Several programs may run there, be renamed and come back to an id that was used
before, and each access of a start to the files is a step of its own. As long as no start comes
amid another one under its id, and a start that has to generate the keys can write both files,
the first pair of an id is its only one: whoever runs under the id, at any time, holds it.
-/

namespace P2PMessenger

open Text Crypto Run

/-- The names that `startNode` makes of the id. -/
def pubKeyFile (id : Bytes) : Bytes := id ++ bytes "_public.key"

def privKeyFile (id : Bytes) : Bytes := id ++ bytes "_private.key"

theorem pubKeyFile_injective : Function.Injective pubKeyFile :=
  fun _ _ => List.append_cancel_right

theorem privKeyFile_injective : Function.Injective privKeyFile :=
  fun _ _ => List.append_cancel_right

theorem pubKeyFile_ne_privKeyFile (id id' : Bytes) : pubKeyFile id ≠ privKeyFile id' := by
  intro hSame
  have hPublic : pubKeyFile id = (id ++ bytes "_publi") ++ bytes "c.key" := by
    rw [List.append_assoc]
    rfl
  have hPrivate : privKeyFile id' = (id' ++ bytes "_privat") ++ bytes "e.key" := by
    rw [List.append_assoc]
    rfl
  rw [hPublic, hPrivate] at hSame
  exact absurd (List.append_inj_right' hSame rfl) (by decide)

/-- The key files of the ids. -/
def keyFileNames (ids : Set Bytes) : Set Bytes := pubKeyFile '' ids ∪ privKeyFile '' ids

/-! ## The files of an id -/

section Disk

-- `Path` is what the file system makes of a name
variable {Path : Type} (resolve : Bytes → Path)

def keyFiles (disk : Path → KeyFile) (id : Bytes) : KeyFiles where
  publicFile := disk (resolve (pubKeyFile id))
  privateFile := disk (resolve (privKeyFile id))

/-- The disk with the two files of an id replaced. -/
def writeFiles [DecidableEq Path] (disk : Path → KeyFile) (id : Bytes) (files : KeyFiles) :
    Path → KeyFile :=
  Function.update (Function.update disk (resolve (pubKeyFile id)) files.publicFile)
    (resolve (privKeyFile id)) files.privateFile

variable {resolve} {ids : Set Bytes}

theorem resolve_pub_ne_priv (hApart : Set.InjOn resolve (keyFileNames ids)) {id id' : Bytes}
    (hId : id ∈ ids) (hId' : id' ∈ ids) :
    resolve (pubKeyFile id) ≠ resolve (privKeyFile id') := by
  intro hSame
  exact pubKeyFile_ne_privKeyFile id id'
    (hApart (Or.inl ⟨id, hId, rfl⟩) (Or.inr ⟨id', hId', rfl⟩) hSame)

variable [DecidableEq Path]

theorem keyFiles_writeFiles_self {id : Bytes}
    (hApart : resolve (pubKeyFile id) ≠ resolve (privKeyFile id)) (disk : Path → KeyFile)
    (files : KeyFiles) : keyFiles resolve (writeFiles resolve disk id files) id = files := by
  simp [keyFiles, writeFiles, Function.update_of_ne hApart]

@[simp] theorem writeFiles_keyFiles (disk : Path → KeyFile) (id : Bytes) :
    writeFiles resolve disk id (keyFiles resolve disk id) = disk := by
  simp [writeFiles, keyFiles]

theorem writeFiles_writeFiles {id : Bytes}
    (hApart : resolve (pubKeyFile id) ≠ resolve (privKeyFile id)) (disk : Path → KeyFile)
    (files files' : KeyFiles) :
    writeFiles resolve (writeFiles resolve disk id files) id files' =
      writeFiles resolve disk id files' := by
  simp only [writeFiles]
  rw [Function.update_comm hApart.symm, Function.update_idem, Function.update_idem]

/-- Writing the files of an id leaves those of the others. -/
theorem keyFiles_writeFiles_of_ne (hApart : Set.InjOn resolve (keyFileNames ids)) {id id' : Bytes}
    (hId : id ∈ ids) (hId' : id' ∈ ids) (hNe : id' ≠ id) (disk : Path → KeyFile)
    (files : KeyFiles) :
    keyFiles resolve (writeFiles resolve disk id files) id' = keyFiles resolve disk id' := by
  have hPublic : resolve (pubKeyFile id') ≠ resolve (pubKeyFile id) := by
    intro hSame
    exact hNe (pubKeyFile_injective
      (hApart (Or.inl ⟨id', hId', rfl⟩) (Or.inl ⟨id, hId, rfl⟩) hSame))
  have hPrivate : resolve (privKeyFile id') ≠ resolve (privKeyFile id) := by
    intro hSame
    exact hNe (privKeyFile_injective
      (hApart (Or.inr ⟨id', hId', rfl⟩) (Or.inr ⟨id, hId, rfl⟩) hSame))
  have hCross := resolve_pub_ne_priv hApart hId' hId
  have hCross' := (resolve_pub_ne_priv hApart hId hId').symm
  simp [keyFiles, writeFiles, hPublic, hPrivate, hCross, hCross']

end Disk

/-- Of what the key initialisation was given, a start keeps the pair. -/
theorem P2PNode.startNode_congr (n : P2PNode) {io io' : StartInput}
    (h : (initKeys io).1 = (initKeys io').1) : n.startNode io = n.startNode io' := by
  simp only [startNode, initNodeKeys, h]

/-- What the other threads of a program may call while its network thread is in `startNode`.
Profiles are published by that thread, and by the worker of a running node. -/
def Event.amidStart : Event → Bool
  | .publishProfile _ => false
  | event => event.keeps

theorem Event.keeps_of_amidStart {e : Event} (h : e.amidStart = true) : e.keeps = true := by
  cases e <;> first | rfl | cases h

/-! ## The programs -/

/-- A call of the node, or the next access of its start to the files. -/
inductive ProgramEvent where
  | node (event : Event)
  | proceed

def ProgramEvent.begun : ProgramEvent → Option StartInput
  | .node (.startNode io) => some io
  | _ => none

/-- The files of a directory, the nodes that run in it and their starts under way. -/
structure KeyDirectory (ι Path : Type) where
  disk : Path → KeyFile
  nodes : ι → P2PNode := fun _ => {}
  starts : ι → Option KeyInit := fun _ => none

namespace KeyDirectory

variable {ι Path : Type} (resolve : Bytes → Path)

/-- The pair that a start under the id would load. -/
def stored (d : KeyDirectory ι Path) (id : Bytes) : Option KeyPair :=
  loadedPair (keyFiles resolve d.disk id)

/-- The start `k` is under way at `i`, under the id. -/
def Under (d : KeyDirectory ι Path) (id : Bytes) (i : ι) (k : KeyInit) : Prop :=
  d.starts i = some k ∧ (d.nodes i).myId = id

/-- A start is under one of the ids. A start under `id` comes amid no other one, and if it finds
no pair it can write both files. -/
def Saves (ids : Set Bytes) (id : Bytes) (d : KeyDirectory ι Path) (e : ι × ProgramEvent) : Prop :=
  ∀ io ∈ e.2.begun, d.starts e.1 = none → (d.nodes e.1).running = false →
    (d.nodes e.1).myId ∈ ids ∧
      ((d.nodes e.1).myId = id →
        (∀ j, d.starts j ≠ none → (d.nodes j).myId ≠ id) ∧
        (d.stored resolve id = none → io.publicOpens = true ∧ io.privateOpens = true))

instance (ids : Set Bytes) [DecidablePred (· ∈ ids)] [Fintype ι] (id : Bytes)
    (d : KeyDirectory ι Path) (e : ι × ProgramEvent) : Decidable (d.Saves resolve ids id e) := by
  have hBusy (j : ι) : Decidable (d.starts j ≠ none) :=
    decidable_of_iff ((d.starts j).isSome = true) Option.isSome_iff_ne_none
  unfold Saves
  infer_instance

/-- The node keeps its keys, and goes on with a start that is under way. -/
structure LeavesKeys (d : KeyDirectory ι Path) (i : ι) (n : P2PNode) : Prop where
  session : n.session = (d.nodes i).session
  keyOwner : n.keyOwner = (d.nodes i).keyOwner
  myKeys : n.myKeys = (d.nodes i).myKeys
  busy : d.starts i ≠ none → n.running = (d.nodes i).running ∧ n.myId = (d.nodes i).myId

variable [DecidableEq ι]

def withNode (d : KeyDirectory ι Path) (i : ι) (n : P2PNode) : KeyDirectory ι Path :=
  { d with nodes := Function.update d.nodes i n }

def begin (d : KeyDirectory ι Path) (i : ι) (io : StartInput) : KeyDirectory ι Path :=
  { d with starts := Function.update d.starts i (some (.begin io)) }

/-- The node takes the keys, which nothing reads amid the start, and the rest of `startNode`
runs. -/
def finish (d : KeyDirectory ι Path) (i : ι) (k : KeyInit) : KeyDirectory ι Path where
  disk := d.disk
  nodes := Function.update d.nodes i ((d.nodes i).startNode k.io)
  starts := Function.update d.starts i none

theorem nodes_withNode_self (d : KeyDirectory ι Path) (i : ι) (n : P2PNode) :
    (d.withNode i n).nodes i = n := by
  simp [withNode]

theorem nodes_withNode_of_ne {i j : ι} (h : j ≠ i) (d : KeyDirectory ι Path) (n : P2PNode) :
    (d.withNode i n).nodes j = d.nodes j := by
  simp [withNode, h]

theorem starts_begin_self (d : KeyDirectory ι Path) (i : ι) (io : StartInput) :
    (d.begin i io).starts i = some (.begin io) := by
  simp [begin]

theorem starts_begin_of_ne {i j : ι} (h : j ≠ i) (d : KeyDirectory ι Path) (io : StartInput) :
    (d.begin i io).starts j = d.starts j := by
  simp [begin, h]

theorem nodes_finish_self (d : KeyDirectory ι Path) (i : ι) (k : KeyInit) :
    (d.finish i k).nodes i = (d.nodes i).startNode k.io := by
  simp [finish]

theorem nodes_finish_of_ne {i j : ι} (h : j ≠ i) (d : KeyDirectory ι Path) (k : KeyInit) :
    (d.finish i k).nodes j = d.nodes j := by
  simp [finish, h]

/-- Only the starts of the others are still under way. -/
theorem starts_finish_eq_some {d : KeyDirectory ι Path} {i j : ι} {k l : KeyInit} :
    (d.finish i k).starts j = some l ↔ j ≠ i ∧ d.starts j = some l := by
  by_cases hHere : j = i
  · subst hHere
    simp [finish]
  · simp [finish, hHere]

section Steps

variable [DecidableEq Path]

def access (d : KeyDirectory ι Path) (i : ι) (k : KeyInit) : KeyDirectory ι Path where
  disk := writeFiles resolve d.disk (d.nodes i).myId
    (k.next (keyFiles resolve d.disk (d.nodes i).myId)).2
  nodes := d.nodes
  starts := Function.update d.starts i
    (some (k.next (keyFiles resolve d.disk (d.nodes i).myId)).1)

theorem starts_access_self (d : KeyDirectory ι Path) (i : ι) (k : KeyInit) :
    (d.access resolve i k).starts i =
      some (k.next (keyFiles resolve d.disk (d.nodes i).myId)).1 := by
  simp [access]

theorem starts_access_of_ne {i j : ι} (h : j ≠ i) (d : KeyDirectory ι Path) (k : KeyInit) :
    (d.access resolve i k).starts j = d.starts j := by
  simp [access, h]

variable (S : Sodium)

/-- Amid a start the network thread of the program is busy, and only the others call the node. -/
def step (d : KeyDirectory ι Path) (e : ι × ProgramEvent) : KeyDirectory ι Path :=
  match d.starts e.1, e.2 with
  | none, .node (.startNode io) => if (d.nodes e.1).running then d else d.begin e.1 io
  | none, .node event => d.withNode e.1 ((d.nodes e.1).step S event)
  | some _, .node event =>
    if event.amidStart then d.withNode e.1 ((d.nodes e.1).step S event) else d
  | none, .proceed => d
  | some k, .proceed => if k.stage = .done then d.finish e.1 k else d.access resolve e.1 k

/-- A start begins, accesses the files or is finished, or a node takes a step of its own. -/
theorem step_cases (d : KeyDirectory ι Path) (e : ι × ProgramEvent) :
    (∃ io, io ∈ e.2.begun ∧ d.starts e.1 = none ∧ (d.nodes e.1).running = false ∧
      d.step resolve S e = d.begin e.1 io) ∨
    (∃ k, d.starts e.1 = some k ∧ d.step resolve S e = d.access resolve e.1 k) ∨
    (∃ k, d.starts e.1 = some k ∧ k.stage = .done ∧ d.step resolve S e = d.finish e.1 k) ∨
    ∃ n, d.step resolve S e = d.withNode e.1 n ∧ d.LeavesKeys e.1 n := by
  obtain ⟨i, event⟩ := e
  have hIdle (h : d.step resolve S (i, event) = d) :
      ∃ n, d.step resolve S (i, event) = d.withNode i n ∧ d.LeavesKeys i n :=
    ⟨d.nodes i, h.trans (by simp [withNode]), rfl, rfl, rfl, fun _ => ⟨rfl, rfl⟩⟩
  cases hStart : d.starts i with
  | some k =>
    cases event with
    | proceed =>
      by_cases hDone : k.stage = .done
      · exact Or.inr (Or.inr (Or.inl ⟨k, rfl, hDone, by simp [step, hStart, hDone]⟩))
      · exact Or.inr (Or.inl ⟨k, rfl, by simp [step, hStart, hDone]⟩)
    | node event =>
      refine Or.inr (Or.inr (Or.inr ?_))
      cases hAmid : event.amidStart with
      | false => exact hIdle (by simp [step, hStart, hAmid])
      | true =>
        have hSame := P2PNode.step_sameSession S (n := d.nodes i) (Event.keeps_of_amidStart hAmid)
        exact ⟨(d.nodes i).step S event, by simp [step, hStart, hAmid], hSame.session,
          hSame.keyOwner, hSame.myKeys, fun _ => ⟨hSame.running, hSame.myId⟩⟩
  | none =>
    cases event with
    | proceed => exact Or.inr (Or.inr (Or.inr (hIdle (by simp [step, hStart]))))
    | node event =>
      by_cases hBegins : ∃ io, event = .startNode io
      · obtain ⟨io, rfl⟩ := hBegins
        cases hRunning : (d.nodes i).running with
        | false => exact Or.inl ⟨io, rfl, rfl, rfl, by simp [step, hStart, hRunning]⟩
        | true => exact Or.inr (Or.inr (Or.inr (hIdle (by simp [step, hStart, hRunning]))))
      · have hStep : d.step resolve S (i, .node event) =
            d.withNode i ((d.nodes i).step S event) := by
          cases event with
          | startNode io => exact absurd ⟨io, rfl⟩ hBegins
          | _ => simp [step, hStart]
        refine Or.inr (Or.inr (Or.inr ⟨_, hStep, ?_⟩))
        rcases P2PNode.keys_step S (d.nodes i) event with ⟨hSession, hOwner, hKeys⟩ | ⟨io, hIo, -⟩
        · exact ⟨hSession, hOwner, hKeys, fun hBusy => absurd hStart hBusy⟩
        · exact absurd ⟨io, hIo⟩ hBegins

/-! ## Undisturbed -/

theorem run_proceed_idle {d : KeyDirectory ι Path} {i : ι} (hIdle : d.starts i = none)
    (count : Nat) : run (step resolve S) d (List.replicate count (i, .proceed)) = d := by
  induction count with
  | zero => rfl
  | succ count ih =>
    have hStep : d.step resolve S (i, .proceed) = d := by simp [step, hIdle]
    rw [List.replicate_succ, run_cons, hStep, ih]

/-- With nobody in between, a start comes to the end of its accesses and is finished. -/
theorem run_proceed {d : KeyDirectory ι Path} {i : ι} {k : KeyInit} (hStart : d.starts i = some k)
    (hApart : resolve (pubKeyFile (d.nodes i).myId) ≠ resolve (privKeyFile (d.nodes i).myId))
    {count : Nat} {k' : KeyInit} {files : KeyFiles}
    (hEnd : KeyInit.accesses count (k, keyFiles resolve d.disk (d.nodes i).myId) = (k', files))
    (hDone : k'.stage = .done) :
    run (step resolve S) d (List.replicate (count + 1) (i, .proceed)) =
      { disk := writeFiles resolve d.disk (d.nodes i).myId files
        nodes := Function.update d.nodes i ((d.nodes i).startNode k'.io)
        starts := Function.update d.starts i none } := by
  induction count generalizing d k with
  | zero =>
    obtain ⟨rfl, rfl⟩ := Prod.mk.inj hEnd
    simp [step, hStart, hDone, finish]
  | succ count ih =>
    rw [List.replicate_succ, run_cons]
    by_cases hNow : k.stage = .done
    · rw [KeyInit.accesses_of_done hNow] at hEnd
      obtain ⟨rfl, rfl⟩ := Prod.mk.inj hEnd
      have hStep : d.step resolve S (i, .proceed) = d.finish i k := by simp [step, hStart, hNow]
      rw [hStep, run_proceed_idle resolve S (by simp [finish])]
      simp [finish]
    · have hStep : d.step resolve S (i, .proceed) = d.access resolve i k := by
        simp [step, hStart, hNow]
      have hFiles : keyFiles resolve (d.access resolve i k).disk (d.nodes i).myId =
          (k.next (keyFiles resolve d.disk (d.nodes i).myId)).2 :=
        keyFiles_writeFiles_self hApart _ _
      rw [hStep]
      have hRest := ih (d := d.access resolve i k)
        (k := (k.next (keyFiles resolve d.disk (d.nodes i).myId)).1)
        (starts_access_self resolve d i k) hApart
        (by rw [← hEnd]; exact congrArg (KeyInit.accesses count) (Prod.ext rfl hFiles))
      rw [hRest]
      simp [access, writeFiles_writeFiles hApart]

/-- With nobody in between, nine steps carry out `startNode` with the files on the disk. -/
theorem run_startNode {d : KeyDirectory ι Path} {i : ι} (hIdle : d.starts i = none)
    (hStopped : (d.nodes i).running = false)
    (hApart : resolve (pubKeyFile (d.nodes i).myId) ≠ resolve (privKeyFile (d.nodes i).myId))
    (io : StartInput) {io' : StartInput}
    (hInput : io' = { io with files := keyFiles resolve d.disk (d.nodes i).myId }) :
    run (step resolve S) d ((i, .node (.startNode io)) :: List.replicate 9 (i, .proceed)) =
      { disk := writeFiles resolve d.disk (d.nodes i).myId (initKeys io').2
        nodes := Function.update d.nodes i ((d.nodes i).step S (.startNode io'))
        starts := d.starts } := by
  have hStep : d.step resolve S (i, .node (.startNode io)) = d.begin i io := by
    simp [step, hIdle, hStopped]
  obtain ⟨hDone, hKeys, hFiles⟩ :=
    KeyInit.accesses_begin io (keyFiles resolve d.disk (d.nodes i).myId)
  rw [← hInput] at hKeys hFiles
  rw [run_cons, hStep, run_proceed resolve S (starts_begin_self d i io)
    hApart (Prod.ext rfl rfl) hDone]
  simp only [begin, Function.update_idem]
  rw [hFiles, P2PNode.startNode_congr _ hKeys, ← hIdle, Function.update_eq_self]
  rfl

end Steps

/-! ## The pair of an id -/

variable {resolve} {ids : Set Bytes} {id : Bytes} {d : KeyDirectory ι Path}

theorem under_withNode {i : ι} {n : P2PNode} (hLeaves : d.LeavesKeys i n) {j : ι} {k : KeyInit}
    (h : (d.withNode i n).Under id j k) : d.Under id j k := by
  obtain ⟨hStart, hId⟩ := h
  refine ⟨hStart, ?_⟩
  by_cases hHere : j = i
  · subst hHere
    have hBusy : d.starts j ≠ none := by
      intro hNone
      exact absurd (hStart.symm.trans hNone) (by simp)
    rw [nodes_withNode_self] at hId
    exact (hLeaves.busy hBusy).2.symm.trans hId
  · rwa [nodes_withNode_of_ne hHere] at hId

theorem under_begin {i j : ι} {io : StartInput} {k : KeyInit} (h : (d.begin i io).Under id j k) :
    (j = i ∧ k = .begin io ∧ (d.nodes i).myId = id) ∨ d.Under id j k := by
  obtain ⟨hStart, hId⟩ := h
  by_cases hHere : j = i
  · subst hHere
    rw [starts_begin_self] at hStart
    exact Or.inl ⟨rfl, (Option.some.inj hStart).symm, hId⟩
  · rw [starts_begin_of_ne hHere] at hStart
    exact Or.inr ⟨hStart, hId⟩

theorem under_finish {i j : ι} {k l : KeyInit} (h : (d.finish i k).Under id j l) :
    j ≠ i ∧ d.Under id j l := by
  obtain ⟨hStart, hId⟩ := h
  obtain ⟨hOther, hOld⟩ := starts_finish_eq_some.mp hStart
  rw [nodes_finish_of_ne hOther] at hId
  exact ⟨hOther, hOld, hId⟩

variable (resolve) in
/-- The pair is on disk, and no start under the id has decided to generate another one. -/
structure Pinned (id : Bytes) (keys : KeyPair) (d : KeyDirectory ι Path) : Prop where
  stored : d.stored resolve id = some keys
  reads : ∀ i k, d.Under id i k → k.stage.writes = false

variable (resolve) in
/-- At most one start is under way under the id, and whoever has started under it holds the
pair on disk. -/
structure Kept (ids : Set Bytes) (id : Bytes) (d : KeyDirectory ι Path) : Prop where
  member : ∀ {i k}, d.starts i = some k → (d.nodes i).running = false ∧ (d.nodes i).myId ∈ ids
  alone : ∀ {i j k l}, d.Under id i k → d.Under id j l → i = j
  sound : ∀ {i k}, d.Under id i k → k.Sound (keyFiles resolve d.disk id)
  holds : ∀ i, 0 < (d.nodes i).session → (d.nodes i).keyOwner = id →
    d.Pinned resolve id (d.nodes i).myKeys

theorem Pinned.begin {keys : KeyPair} (h : d.Pinned resolve id keys) (i : ι) (io : StartInput) :
    (d.begin i io).Pinned resolve id keys := by
  refine ⟨h.stored, ?_⟩
  intro j l hUnder
  rcases under_begin hUnder with ⟨-, rfl, -⟩ | hOld
  · rfl
  · exact h.reads j l hOld

theorem Pinned.finish {keys : KeyPair} (h : d.Pinned resolve id keys) (i : ι) (k : KeyInit) :
    (d.finish i k).Pinned resolve id keys :=
  ⟨h.stored, fun j l hUnder => h.reads j l (under_finish hUnder).2⟩

theorem Pinned.withNode {keys : KeyPair} (h : d.Pinned resolve id keys) {i : ι} {n : P2PNode}
    (hLeaves : d.LeavesKeys i n) : (d.withNode i n).Pinned resolve id keys :=
  ⟨h.stored, fun j l hUnder => h.reads j l (under_withNode hLeaves hUnder)⟩

/-- A start begins amid no other one under the id. -/
theorem Kept.begin (h : d.Kept resolve ids id) {i : ι} {io : StartInput}
    (hStopped : (d.nodes i).running = false) (hMem : (d.nodes i).myId ∈ ids)
    (hFirst : (d.nodes i).myId = id → (∀ j, d.starts j ≠ none → (d.nodes j).myId ≠ id) ∧
      (d.stored resolve id = none → io.publicOpens = true ∧ io.privateOpens = true)) :
    (d.begin i io).Kept resolve ids id where
  member := by
    intro j k hStart
    by_cases hHere : j = i
    · subst hHere
      exact ⟨hStopped, hMem⟩
    · rw [starts_begin_of_ne hHere] at hStart
      exact h.member hStart
  alone := by
    intro j j' k l hUnder hUnder'
    have hNobody (hOwn : (d.nodes i).myId = id) {j : ι} {l : KeyInit} {P : Prop}
        (hOld : d.Under id j l) : P :=
      absurd hOld.2 ((hFirst hOwn).1 j (by rw [hOld.1]; exact Option.some_ne_none l))
    rcases under_begin hUnder with ⟨rfl, -, hOwn⟩ | hOld
    · rcases under_begin hUnder' with ⟨rfl, -, -⟩ | hOld'
      · rfl
      · exact hNobody hOwn hOld'
    · rcases under_begin hUnder' with ⟨rfl, -, hOwn⟩ | hOld'
      · exact hNobody hOwn hOld
      · exact h.alone hOld hOld'
  sound := by
    intro j k hUnder
    rcases under_begin hUnder with ⟨-, rfl, hOwn⟩ | hOld
    · exact KeyInit.sound_begin (hFirst hOwn).2
    · exact h.sound hOld
  holds := fun j hSession hOwner => (h.holds j hSession hOwner).begin i io

/-- The node takes the pair that is on disk. -/
theorem Kept.finish (h : d.Kept resolve ids id) {i : ι} {k : KeyInit}
    (hStart : d.starts i = some k) (hDone : k.stage = .done) :
    (d.finish i k).Kept resolve ids id where
  member := by
    intro j l hStart'
    obtain ⟨hOther, hOld⟩ := starts_finish_eq_some.mp hStart'
    rw [nodes_finish_of_ne hOther]
    exact h.member hOld
  alone := fun hUnder hUnder' => h.alone (under_finish hUnder).2 (under_finish hUnder').2
  sound := fun hUnder => h.sound (under_finish hUnder).2
  holds := by
    intro j hSession hOwner
    by_cases hHere : j = i
    · subst hHere
      have hStopped := (h.member hStart).1
      rw [nodes_finish_self] at hOwner ⊢
      -- the keys are those of the id under which the node was started
      have hOwn : (d.nodes j).myId = id := by
        rw [P2PNode.startNode_of_stopped hStopped] at hOwner
        exact hOwner
      have hLoaded := h.sound ⟨hStart, hOwn⟩
      rw [KeyInit.Sound, hDone] at hLoaded
      refine ⟨?_, ?_⟩
      · rw [P2PNode.myKeys_startNode hStopped]
        exact hLoaded
      · intro j' l hUnder
        obtain ⟨hOther, hOld⟩ := under_finish hUnder
        exact absurd (h.alone hOld ⟨hStart, hOwn⟩) hOther
    · rw [nodes_finish_of_ne hHere] at hSession hOwner ⊢
      exact (h.holds j hSession hOwner).finish i k

theorem Kept.withNode (h : d.Kept resolve ids id) {i : ι} {n : P2PNode}
    (hLeaves : d.LeavesKeys i n) : (d.withNode i n).Kept resolve ids id where
  member := by
    intro j k hStart
    have hOld := h.member (i := j) hStart
    by_cases hHere : j = i
    · subst hHere
      have hBusy : d.starts j ≠ none := fun hNone => by
        rw [show d.starts j = some k from hStart] at hNone
        cases hNone
      obtain ⟨hRunning, hMyId⟩ := hLeaves.busy hBusy
      rw [nodes_withNode_self, hRunning, hMyId]
      exact hOld
    · rw [nodes_withNode_of_ne hHere]
      exact hOld
  alone := fun hUnder hUnder' =>
    h.alone (under_withNode hLeaves hUnder) (under_withNode hLeaves hUnder')
  sound := fun hUnder => h.sound (under_withNode hLeaves hUnder)
  holds := by
    intro j hSession hOwner
    by_cases hHere : j = i
    · subst hHere
      rw [nodes_withNode_self, hLeaves.session] at hSession
      rw [nodes_withNode_self, hLeaves.keyOwner] at hOwner
      rw [nodes_withNode_self, hLeaves.myKeys]
      exact (h.holds j hSession hOwner).withNode hLeaves
    · rw [nodes_withNode_of_ne hHere] at hSession hOwner ⊢
      exact (h.holds j hSession hOwner).withNode hLeaves

/-! ## Access by access -/

variable [DecidableEq Path] (S : Sodium)

theorem under_access {i j : ι} {k l : KeyInit} (h : (d.access resolve i k).Under id j l) :
    (j = i ∧ l = (k.next (keyFiles resolve d.disk (d.nodes i).myId)).1 ∧ (d.nodes i).myId = id) ∨
      (j ≠ i ∧ d.Under id j l) := by
  obtain ⟨hStart, hId⟩ := h
  by_cases hHere : j = i
  · subst hHere
    rw [starts_access_self] at hStart
    exact Or.inl ⟨rfl, (Option.some.inj hStart).symm, hId⟩
  · rw [starts_access_of_ne resolve hHere] at hStart
    exact Or.inr ⟨hHere, hStart, hId⟩

/-- An access under another id leaves the files of this one. -/
theorem keyFiles_access_of_ne (hApart : Set.InjOn resolve (keyFileNames ids)) (hId : id ∈ ids)
    {i : ι} (hMem : (d.nodes i).myId ∈ ids) (hOther : (d.nodes i).myId ≠ id) (k : KeyInit) :
    keyFiles resolve (d.access resolve i k).disk id = keyFiles resolve d.disk id :=
  keyFiles_writeFiles_of_ne hApart hMem hId (Ne.symm hOther) _ _

theorem keyFiles_access_self (hApart : Set.InjOn resolve (keyFileNames ids)) (hId : id ∈ ids)
    {i : ι} (hOwn : (d.nodes i).myId = id) (k : KeyInit) :
    keyFiles resolve (d.access resolve i k).disk id =
      (k.next (keyFiles resolve d.disk id)).2 := by
  subst hOwn
  exact keyFiles_writeFiles_self (resolve_pub_ne_priv hApart hId hId) _ _

/-- A start that reads a pair leaves it on disk. -/
theorem Pinned.access (hApart : Set.InjOn resolve (keyFileNames ids)) (hId : id ∈ ids)
    {keys : KeyPair} (h : d.Pinned resolve id keys) {i : ι} (hMem : (d.nodes i).myId ∈ ids)
    {k : KeyInit} (hStart : d.starts i = some k) :
    (d.access resolve i k).Pinned resolve id keys := by
  by_cases hOwn : (d.nodes i).myId = id
  · obtain ⟨hReads, hFiles⟩ := KeyInit.next_of_loaded h.stored (h.reads i k ⟨hStart, hOwn⟩)
    constructor
    · rw [KeyDirectory.stored, keyFiles_access_self hApart hId hOwn, hFiles]
      exact h.stored
    · intro j l hUnder
      rcases under_access hUnder with ⟨-, rfl, -⟩ | ⟨-, hOld⟩
      · rw [hOwn]
        exact hReads
      · exact h.reads j l hOld
  · constructor
    · rw [KeyDirectory.stored, keyFiles_access_of_ne hApart hId hMem hOwn]
      exact h.stored
    · intro j l hUnder
      rcases under_access hUnder with ⟨-, -, hSame⟩ | ⟨-, hOld⟩
      · exact absurd hSame hOwn
      · exact h.reads j l hOld

theorem Kept.access (hApart : Set.InjOn resolve (keyFileNames ids)) (hId : id ∈ ids)
    (h : d.Kept resolve ids id) {i : ι} {k : KeyInit} (hStart : d.starts i = some k) :
    (d.access resolve i k).Kept resolve ids id where
  member := by
    intro j l hStart'
    by_cases hHere : j = i
    · subst hHere
      exact h.member hStart
    · rw [starts_access_of_ne resolve hHere] at hStart'
      exact h.member hStart'
  alone := by
    intro j j' l l' hUnder hUnder'
    have hBefore {j : ι} {l : KeyInit} (hUnder : (d.access resolve i k).Under id j l) :
        ∃ l, d.Under id j l := by
      rcases under_access hUnder with ⟨rfl, -, hOwn⟩ | ⟨-, hOld⟩
      · exact ⟨k, hStart, hOwn⟩
      · exact ⟨l, hOld⟩
    obtain ⟨l, hOld⟩ := hBefore hUnder
    obtain ⟨l', hOld'⟩ := hBefore hUnder'
    exact h.alone hOld hOld'
  sound := by
    intro j l hUnder
    rcases under_access hUnder with ⟨rfl, rfl, hOwn⟩ | ⟨hOther, hOld⟩
    · rw [keyFiles_access_self hApart hId hOwn, hOwn]
      exact KeyInit.sound_next (h.sound ⟨hStart, hOwn⟩)
    · -- the two starts are not under the same id
      have hNot : (d.nodes i).myId ≠ id := fun hOwn => hOther (h.alone hOld ⟨hStart, hOwn⟩)
      rw [keyFiles_access_of_ne hApart hId (h.member hStart).2 hNot]
      exact h.sound hOld
  holds := fun j hSession hOwner =>
    (h.holds j hSession hOwner).access hApart hId (h.member hStart).2 hStart

/-- Nothing replaces the pair of an id. -/
theorem pinned_step (hApart : Set.InjOn resolve (keyFileNames ids)) (hId : id ∈ ids)
    (hKept : d.Kept resolve ids id) {keys : KeyPair} (h : d.Pinned resolve id keys)
    (e : ι × ProgramEvent) : (d.step resolve S e).Pinned resolve id keys := by
  rcases step_cases resolve S d e with ⟨io, -, -, -, hStep⟩ | ⟨k, hStart, hStep⟩ |
    ⟨k, -, -, hStep⟩ | ⟨n, hStep, hLeaves⟩
  · exact hStep ▸ h.begin e.1 io
  · exact hStep ▸ h.access hApart hId (hKept.member hStart).2 hStart
  · exact hStep ▸ h.finish e.1 k
  · exact hStep ▸ h.withNode hLeaves

theorem kept_step (hApart : Set.InjOn resolve (keyFileNames ids)) (hId : id ∈ ids)
    (h : d.Kept resolve ids id) {e : ι × ProgramEvent} (hSaves : d.Saves resolve ids id e) :
    (d.step resolve S e).Kept resolve ids id := by
  rcases step_cases resolve S d e with ⟨io, hIo, hIdle, hStopped, hStep⟩ | ⟨k, hStart, hStep⟩ |
    ⟨k, hStart, hDone, hStep⟩ | ⟨n, hStep, hLeaves⟩
  · obtain ⟨hMem, hFirst⟩ := hSaves io hIo hIdle hStopped
    exact hStep ▸ h.begin hStopped hMem hFirst
  · exact hStep ▸ h.access hApart hId hStart
  · exact hStep ▸ h.finish hStart hDone
  · exact hStep ▸ h.withNode hLeaves

theorem kept_run (hApart : Set.InjOn resolve (keyFileNames ids)) (hId : id ∈ ids)
    (disk : Path → KeyFile) {es : List (ι × ProgramEvent)}
    (hSaves : Along (step resolve S) (Saves resolve ids id) { disk := disk } es) :
    (run (step resolve S) { disk := disk } es).Kept resolve ids id := by
  refine run_invariant_along (I := fun d : KeyDirectory ι Path => d.Kept resolve ids id)
    (fun _ _ hKept hSave => kept_step S hApart hId hKept hSave) ?_ hSaves
  refine ⟨?_, ?_, ?_, fun i hSession => absurd hSession (Nat.lt_irrefl 0)⟩
  · intro i k hStart
    cases hStart
  · intro i j k l hUnder
    cases hUnder.1
  · intro i k hUnder
    cases hUnder.1

theorem pinned_run (hApart : Set.InjOn resolve (keyFileNames ids)) (hId : id ∈ ids)
    (hKept : d.Kept resolve ids id) {keys : KeyPair} (hPinned : d.Pinned resolve id keys)
    {es : List (ι × ProgramEvent)}
    (hSaves : Along (step resolve S) (Saves resolve ids id) d es) :
    (run (step resolve S) d es).Pinned resolve id keys := by
  have hBoth : (run (step resolve S) d es).Kept resolve ids id ∧
      (run (step resolve S) d es).Pinned resolve id keys :=
    run_invariant_along
      (I := fun d : KeyDirectory ι Path => d.Kept resolve ids id ∧ d.Pinned resolve id keys)
      (fun _ e h hSave => ⟨kept_step S hApart hId h.1 hSave, pinned_step S hApart hId h.1 h.2 e⟩)
      ⟨hKept, hPinned⟩ hSaves
  exact hBoth.2

/-- However many programs run in a directory and whatever they do, be it stops, renames and
starts, access by access to the files: if the ids in use have files of their own, no two starts
under one id are under way at once, and whoever generates the keys of an id can write both
files, then any two programs that have started under that id, at any two moments, hold the same
pair and publish its public key. -/
theorem one_pair_per_id (hApart : Set.InjOn resolve (keyFileNames ids)) (hId : id ∈ ids)
    (disk : Path → KeyFile) {es : List (ι × ProgramEvent)}
    (hSaves : Along (step resolve S) (Saves resolve ids id) { disk := disk } es)
    {pre pre' : List (ι × ProgramEvent)} (hPre : pre <+: es) (hPre' : pre' <+: es) {i j : ι}
    {n m : P2PNode} (hNode : n = (run (step resolve S) { disk := disk } pre).nodes i)
    (hNode' : m = (run (step resolve S) { disk := disk } pre').nodes j)
    (hStarted : 0 < n.session ∧ n.keyOwner = id) (hStarted' : 0 < m.session ∧ m.keyOwner = id) :
    n.myKeys = m.myKeys ∧
      ∀ profile, profileKey [(n.profilePut profile).payload] = some m.myKeys.publicKey := by
  have hKept {es' : List (ι × ProgramEvent)} (hPrefix : es' <+: es) :
      (run (step resolve S) { disk := disk } es').Kept resolve ids id :=
    kept_run S hApart hId disk (hSaves.of_prefix hPrefix)
  have hHeld : (run (step resolve S) { disk := disk } pre).Pinned resolve id n.myKeys := by
    rw [hNode] at hStarted ⊢
    exact (hKept hPre).holds i hStarted.1 hStarted.2
  have hHeld' : (run (step resolve S) { disk := disk } pre').Pinned resolve id m.myKeys := by
    rw [hNode'] at hStarted' ⊢
    exact (hKept hPre').holds j hStarted'.1 hStarted'.2
  -- what was stored at the earlier moment still is at the later one
  have hLater {early late : List (ι × ProgramEvent)} (hEarly : early <+: late)
      (hLate : late <+: es) {keys : KeyPair}
      (hPinned : (run (step resolve S) { disk := disk } early).Pinned resolve id keys) :
      (run (step resolve S) { disk := disk } late).stored resolve id = some keys := by
    have hThen := hKept (hEarly.trans hLate)
    obtain ⟨more, rfl⟩ := hEarly
    have hMore := ((along_append _ _ _).mp (hSaves.of_prefix hLate)).2
    rw [run_append]
    exact (pinned_run S hApart hId hThen hPinned hMore).stored
  have hSame : n.myKeys = m.myKeys := by
    rcases List.prefix_or_prefix_of_prefix hPre hPre' with hFirst | hSecond
    · exact Option.some.inj ((hLater hFirst hPre' hHeld).symm.trans hHeld'.stored)
    · exact Option.some.inj (hHeld.stored.symm.trans (hLater hSecond hPre hHeld'))
  refine ⟨hSame, ?_⟩
  intro profile
  rw [← hSame]
  exact profileKey_profilePayload profile n.myKeys.publicKey []

/-- Two programs that look for the files of one new id before either has written them hold
different pairs. -/
example :
    let starts : List (Bool × ProgramEvent) :=
      [(true, .node (.setNodeConfig 4222 (bytes "user1"))),
        (false, .node (.setNodeConfig 4223 (bytes "user1"))),
        (true, .node (.startNode { generated := .constant 7 })),
        (false, .node (.startNode { generated := .constant 50 })), (true, .proceed),
        (false, .proceed)] ++
      List.replicate 5 (true, .proceed) ++ List.replicate 5 (false, .proceed)
    let d := run (step (fun name => name) Sodium.additive) { disk := fun _ => .absent } starts
    (d.nodes true).running = true ∧ (d.nodes false).running = true ∧
      (d.nodes true).myKeys ≠ (d.nodes false).myKeys := by decide +kernel

/-- A whole start at `i`. -/
def startOf (i : Bool) (b : UInt8) : List (Bool × ProgramEvent) :=
  (i, .node (.startNode { generated := .constant b })) :: List.replicate 9 (i, .proceed)

/-- Alice runs while a second program starts as Bob, each becomes the other, and Alice comes
back. -/
def aliceTwice : List (Bool × ProgramEvent) :=
  [(true, .node (.setNodeConfig 4222 (bytes "alice"))),
    (false, .node (.setNodeConfig 4223 (bytes "bob"))),
    (true, .node (.startNode { generated := .constant 7 }))] ++ startOf false 40 ++
    List.replicate 9 (true, .proceed) ++
  [(true, .node .stopNode), (false, .node .stopNode),
    (true, .node (.setNodeConfig 4222 (bytes "bob"))),
    (false, .node (.setNodeConfig 4223 (bytes "alice")))] ++ startOf true 50 ++ startOf false 60 ++
  [(true, .node .stopNode), (true, .node (.setNodeConfig 4222 (bytes "alice")))] ++ startOf true 70

def aliceAndBob : Set Bytes := {id | id ∈ [bytes "alice", bytes "bob"]}

instance : DecidablePred (· ∈ aliceAndBob) :=
  fun id => inferInstanceAs (Decidable (id ∈ [bytes "alice", bytes "bob"]))

/-- Where every name is a file of its own, her first keys are those of her second return. -/
theorem aliceTwice_one_pair :
    ∃ n m : P2PNode, n.session = 1 ∧ m.session = 3 ∧ n.myKeys = m.myKeys ∧
      ∀ profile, profileKey [(n.profilePut profile).payload] = some m.myKeys.publicKey := by
  have hMem : bytes "alice" ∈ aliceAndBob := by decide +kernel
  have hSaves : Along (step (fun name => name) Sodium.additive)
      (Saves (fun name => name) aliceAndBob (bytes "alice"))
      ({ disk := fun _ => .absent } : KeyDirectory Bool Bytes) aliceTwice := by decide +kernel
  refine ⟨_, _, ?_, ?_, one_pair_per_id Sodium.additive (Set.injOn_id _) hMem _ hSaves
    (List.take_prefix 30 aliceTwice) (List.prefix_refl aliceTwice) (i := true) (j := true)
    rfl rfl ?_ ?_⟩
  · decide +kernel
  · decide +kernel
  · decide +kernel
  · decide +kernel

end KeyDirectory

end P2PMessenger
