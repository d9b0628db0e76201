import P2PMessenger.Controller.System
import P2PMessenger.Window.Events

/-!
# The bootstrap node after a restart

The host of the last dial is kept by the node and the port by the window, which fills it
once, in its constructor. A restart dials the kept pair, so it comes back to the last
dialled node as long as every accepted click on Connect used the port of the launch.
-/

namespace P2PMessenger

open Text Crypto Run

/-! ## Clicks on Connect -/

/-- The pair that `OnBootstrapClicked` hands to the controller, unless it rejects the port. -/
def bootstrapClick (hostInput portInput : WxString) : Option (Bytes × Bytes) :=
  let host := WxString.trimLeft (trimRight hostInput)
  let port := trimRight portInput
  let host := if host = [] then wxT "127.0.0.1" else host
  if port = [] ∨ port = wxT "0" then none
  else some (WxString.utf8_str host, WxString.utf8_str port)

def System.onBootstrapClicked (s : System) (hostInput portInput : WxString) : System :=
  match bootstrapClick hostInput portInput with
  | none => s
  | some (host, port) => { s with app := s.app.bootstrap host port }

/-! ## What the methods dial -/

namespace P2PNode

theorem dialled_startNode (n : P2PNode) (io : StartInput) :
    (n.startNode io).dialled = n.dialled ∧ (n.startNode io).bootstrapHost = n.bootstrapHost := by
  unfold startNode
  split <;> exact ⟨rfl, rfl⟩

theorem dialled_stopNode (n : P2PNode) :
    n.stopNode.dialled = n.dialled ∧ n.stopNode.bootstrapHost = n.bootstrapHost := by
  unfold stopNode
  split <;> exact ⟨rfl, rfl⟩

theorem dialled_publishProfile (n : P2PNode) (profile : UserProfile) :
    (n.publishProfile profile).dialled = n.dialled ∧
      (n.publishProfile profile).bootstrapHost = n.bootstrapHost := ⟨rfl, rfl⟩

/-- A dial is remembered, its host only if it is not empty. -/
theorem dialled_bootstrap (n : P2PNode) (ip port : Bytes) :
    (n.bootstrap ip port).dialled = n.dialled ++ [(ip, port)] ∧
      (n.bootstrap ip port).bootstrapHost = if ip = [] then n.bootstrapHost else ip := by
  unfold bootstrap setBootstrapHost
  by_cases hHost : ip = []
  · simp [hHost, notifyNetworkStatus]
  · simp [hHost, notifyNetworkStatus]

end P2PNode

namespace AppController

/-- What `start` dials. -/
def dials (host port : Bytes) : List (Bytes × Bytes) := if Dials port then [(host, port)] else []

theorem dialled_stop (a : AppController) :
    a.stop.node.dialled = a.node.dialled ∧ a.stop.node.bootstrapHost = a.node.bootstrapHost := by
  unfold stop
  split
  · exact ⟨rfl, rfl⟩
  · exact P2PNode.dialled_stopNode a.node

theorem running_stop (a : AppController) : a.stop.running = false := by
  unfold stop
  split
  · rename_i hStopped
    simpa using hStopped
  · rfl

theorem node_start {a : AppController} (h : a.running = false) (bootstrapHost bootstrapPort : Bytes)
    (io : StartInput) :
    (a.start bootstrapHost bootstrapPort io).node =
      if Dials bootstrapPort then
        (((a.node.startNode io).publishProfile a.ownProfile).bootstrap bootstrapHost
          bootstrapPort).publishProfile a.ownProfile
      else (a.node.startNode io).publishProfile a.ownProfile := by
  by_cases hDials : Dials bootstrapPort
  · simp [start, h, hDials, AppController.bootstrap, ownProfile]
  · simp [start, h, hDials, ownProfile]

theorem dialled_configure (a : AppController) (peerId : Bytes) (port : Nat) :
    (a.configure peerId port).node.dialled = a.node.dialled ∧
      (a.configure peerId port).node.bootstrapHost = a.node.bootstrapHost := ⟨rfl, rfl⟩

/-- A start with the remembered host dials it and remembers it still. -/
theorem dialled_start {a : AppController} (h : a.running = false) (bootstrapHost : Bytes)
    (hHost : a.node.bootstrapHost = bootstrapHost) (bootstrapPort : Bytes) (io : StartInput) :
    (a.start bootstrapHost bootstrapPort io).node.dialled =
        a.node.dialled ++ dials bootstrapHost bootstrapPort ∧
      (a.start bootstrapHost bootstrapPort io).node.bootstrapHost = bootstrapHost := by
  obtain ⟨hDialled, hKept⟩ := P2PNode.dialled_startNode a.node io
  obtain ⟨hPublished, hPublishedHost⟩ :=
    P2PNode.dialled_publishProfile (a.node.startNode io) a.ownProfile
  rw [node_start h]
  generalize (a.node.startNode io).publishProfile a.ownProfile = n at hPublished hPublishedHost ⊢
  unfold dials
  by_cases hDials : Dials bootstrapPort
  · obtain ⟨hDial, hNewHost⟩ := P2PNode.dialled_bootstrap n bootstrapHost bootstrapPort
    obtain ⟨hAgain, hAgainHost⟩ :=
      P2PNode.dialled_publishProfile (n.bootstrap bootstrapHost bootstrapPort) a.ownProfile
    rw [if_pos hDials, if_pos hDials]
    constructor
    · rw [hAgain, hDial, hPublished, hDialled]
    · rw [hAgainHost, hNewHost, hPublishedHost, hKept, hHost, ite_self]
  · rw [if_neg hDials, if_neg hDials, List.append_nil]
    exact ⟨hPublished.trans hDialled, hPublishedHost.trans (hKept.trans hHost)⟩

theorem dialled_changePeerId (a : AppController) (newPeerId bootstrapPort : Bytes)
    (io : StartInput) :
    (a.changePeerId newPeerId a.node.bootstrapHost bootstrapPort io).node.dialled =
        a.node.dialled ++ dials a.node.bootstrapHost bootstrapPort ∧
      (a.changePeerId newPeerId a.node.bootstrapHost bootstrapPort io).node.bootstrapHost =
        a.node.bootstrapHost := by
  obtain ⟨hStop, hStopHost⟩ := dialled_stop a
  obtain ⟨hConfigure, hConfigureHost⟩ := dialled_configure a.stop newPeerId a.stop.port
  have hStopped : (a.stop.configure newPeerId a.stop.port).running = false := running_stop a
  obtain ⟨hDialled, hHost⟩ := dialled_start hStopped a.node.bootstrapHost
    (hConfigureHost.trans hStopHost) bootstrapPort io
  rw [changePeerId, hDialled, hConfigure, hStop]
  exact ⟨rfl, hHost⟩

end AppController

/-! ## Clicks and renames -/

/-- An action of the user that runs to completion. -/
inductive UserAction where
  | connect (hostInput portInput : WxString)
  | rename (newPeerId : Bytes) (io : StartInput)

/-- The last accepted click since the last dial of a start. -/
def lastClick (bootstrapPort : Bytes) (actions : List UserAction) : Option (Bytes × Bytes) :=
  actions.foldl
    (fun click action =>
      match action with
      | .connect hostInput portInput => (bootstrapClick hostInput portInput).or click
      | .rename _ _ => if AppController.Dials bootstrapPort then none else click)
    none

/-- There was no such click, or it used the port of the launch, which a start dials, and a
host that is not empty. -/
def KeepsNetwork (bootstrapPort : Bytes) (actions : List UserAction) : Prop :=
  ∀ click, lastClick bootstrapPort actions = some click →
    AppController.Dials bootstrapPort ∧ click.2 = bootstrapPort ∧ click.1 ≠ []

namespace System

variable (S : Sodium)

/-- The window is constructed and its start has run. -/
def started (peerId : Bytes) (port : Nat) (bootstrapHost bootstrapPort : Bytes)
    (io : StartInput) : System :=
  run (step S) (launch peerId port bootstrapHost bootstrapPort) (List.replicate 6 (.work io))

def userStep (s : System) : UserAction → System
  | .connect hostInput portInput => s.onBootstrapClicked hostInput portInput
  | .rename newPeerId io => run (step S) (s.changePeerId newPeerId) (List.replicate 8 (.work io))

/-- A restart dials the pair that was dialled last, or none if none was. -/
def Rejoins (s : System) (newPeerId : Bytes) (io : StartInput) : Prop :=
  (s.userStep S (.rename newPeerId io)).app.node.dialled =
    s.app.node.dialled ++ s.app.node.dialled.getLast?.toList

/-- Between two actions of the user the worker rests, and the last dial is the last click, or
else that of the last start. -/
structure Settled (bootstrapPort : Bytes) (actions : List UserAction) (s : System) : Prop where
  todo : s.todo = []
  port : s.bootstrapPort = bootstrapPort
  shuttingDown : s.shuttingDown = false
  host_ne_nil : s.app.node.bootstrapHost ≠ []
  lastDial : s.app.node.dialled.getLast? =
    (lastClick bootstrapPort actions).or
      (AppController.dials s.app.node.bootstrapHost bootstrapPort).getLast?
  clickedHost : ∀ click, lastClick bootstrapPort actions = some click → click.1 ≠ [] →
    s.app.node.bootstrapHost = click.1

theorem userStep_rename {s : System} (hTodo : s.todo = []) (hOpen : s.shuttingDown = false)
    (newPeerId : Bytes) (io : StartInput) :
    s.userStep S (.rename newPeerId io) =
      { s with
        app := s.app.changePeerId newPeerId s.app.node.bootstrapHost s.bootstrapPort io } := by
  have hQueue : s.changePeerId newPeerId = { s with
      todo := [.stop, .configure newPeerId,
        .start s.app.node.bootstrapHost s.bootstrapPort] } := by
    simp [changePeerId, hOpen, hTodo]
  rw [userStep, hQueue, run_changePeerId S rfl]
  simp [hTodo]

theorem settled_started (peerId : Bytes) (port : Nat) (bootstrapHost bootstrapPort : Bytes)
    (io : StartInput) :
    Settled bootstrapPort [] (started S peerId port bootstrapHost bootstrapPort io) := by
  have hLaunch : (launch peerId port bootstrapHost bootstrapPort).app.node.bootstrapHost ≠ [] ∧
      (launch peerId port bootstrapHost bootstrapPort).app.node.dialled = [] := by
    simp only [launch, AppController.setBootstrapHost, P2PNode.setBootstrapHost]
    split
    · rename_i hHost
      exact ⟨hHost, rfl⟩
    · have hDefault : bytes "127.0.0.1" ≠ [] := by decide +kernel
      exact ⟨hDefault, rfl⟩
  obtain ⟨hHost, hNone⟩ := hLaunch
  obtain ⟨hDialled, hKept⟩ := AppController.dialled_start
    (a := (launch peerId port bootstrapHost bootstrapPort).app) rfl _ rfl bootstrapPort io
  have hTodo : (launch peerId port bootstrapHost bootstrapPort).todo =
      [.start (launch peerId port bootstrapHost bootstrapPort).app.node.bootstrapHost
        bootstrapPort] := rfl
  rw [started, run_start S hTodo]
  refine ⟨rfl, rfl, rfl, ?_, ?_, ?_⟩
  · rw [hKept]
    exact hHost
  · rw [hKept, hDialled, hNone]
    rfl
  · intro click hClick
    cases hClick

theorem lastClick_connect (bootstrapPort : Bytes) (actions : List UserAction)
    (hostInput portInput : WxString) :
    lastClick bootstrapPort (actions ++ [.connect hostInput portInput]) =
      (bootstrapClick hostInput portInput).or (lastClick bootstrapPort actions) := by
  rw [lastClick, List.foldl_append]
  rfl

theorem lastClick_rename (bootstrapPort : Bytes) (actions : List UserAction) (newPeerId : Bytes)
    (io : StartInput) :
    lastClick bootstrapPort (actions ++ [.rename newPeerId io]) =
      if AppController.Dials bootstrapPort then none else lastClick bootstrapPort actions := by
  rw [lastClick, List.foldl_append]
  rfl

theorem Settled.connect {s : System} {bootstrapPort : Bytes} {actions : List UserAction}
    (h : s.Settled bootstrapPort actions) (hostInput portInput : WxString) :
    (s.onBootstrapClicked hostInput portInput).Settled bootstrapPort
      (actions ++ [.connect hostInput portInput]) := by
  have hLast := lastClick_connect bootstrapPort actions hostInput portInput
  unfold onBootstrapClicked
  cases hClick : bootstrapClick hostInput portInput with
  | none =>
    rw [hClick, Option.none_or] at hLast
    refine ⟨h.todo, h.port, h.shuttingDown, h.host_ne_nil, ?_, ?_⟩
    · rw [hLast]
      exact h.lastDial
    · rw [hLast]
      exact h.clickedHost
  | some click =>
    obtain ⟨host, port⟩ := click
    rw [hClick, Option.some_or] at hLast
    obtain ⟨hDialled, hHost⟩ := P2PNode.dialled_bootstrap s.app.node host port
    refine ⟨h.todo, h.port, h.shuttingDown, ?_, ?_, ?_⟩
    · show (s.app.node.bootstrap host port).bootstrapHost ≠ []
      rw [hHost]
      split
      · exact h.host_ne_nil
      · assumption
    · show (s.app.node.bootstrap host port).dialled.getLast? = _
      rw [hDialled, List.getLast?_concat, hLast, Option.some_or]
    · intro click' hSome hNonempty
      rw [hLast, Option.some.injEq] at hSome
      subst hSome
      exact hHost.trans (if_neg hNonempty)

theorem Settled.rename {s : System} {bootstrapPort : Bytes} {actions : List UserAction}
    (h : s.Settled bootstrapPort actions) (newPeerId : Bytes) (io : StartInput) :
    (s.userStep S (.rename newPeerId io)).Settled bootstrapPort
      (actions ++ [.rename newPeerId io]) := by
  have hLast := lastClick_rename bootstrapPort actions newPeerId io
  obtain ⟨hDialled, hHost⟩ := AppController.dialled_changePeerId s.app newPeerId bootstrapPort io
  rw [userStep_rename S h.todo h.shuttingDown, h.port]
  refine ⟨h.todo, rfl, h.shuttingDown, ?_, ?_, ?_⟩
  · rw [hHost]
    exact h.host_ne_nil
  · rw [hHost, hDialled, hLast]
    by_cases hDials : AppController.Dials bootstrapPort
    · simp [AppController.dials, hDials]
    · have hSame := h.lastDial
      simp only [AppController.dials, hDials, if_false, List.append_nil] at hSame ⊢
      exact hSame
  · intro click hClick hNonempty
    rw [hLast] at hClick
    obtain ⟨-, hClick⟩ := Option.ite_none_left_eq_some.mp hClick
    exact hHost.trans (h.clickedHost click hClick hNonempty)

theorem settled_run (peerId : Bytes) (port : Nat) (bootstrapHost bootstrapPort : Bytes)
    (io : StartInput) (actions : List UserAction) :
    Settled bootstrapPort actions
      (run (userStep S) (started S peerId port bootstrapHost bootstrapPort io) actions) := by
  induction actions using List.reverseRecOn with
  | nil =>
    rw [run_nil]
    exact settled_started S peerId port bootstrapHost bootstrapPort io
  | append_singleton actions action ih =>
    rw [run_snoc]
    cases action with
    | connect hostInput portInput => exact ih.connect hostInput portInput
    | rename newPeerId io' => exact ih.rename S newPeerId io'

/-- A restart dials the kept pair; the last dial was the last click. -/
theorem Settled.rejoins_iff {s : System} {bootstrapPort : Bytes} {actions : List UserAction}
    (h : s.Settled bootstrapPort actions) (newPeerId : Bytes) (io : StartInput) :
    s.Rejoins S newPeerId io ↔ KeepsNetwork bootstrapPort actions := by
  have hDialled := (AppController.dialled_changePeerId s.app newPeerId bootstrapPort io).1
  have hLast := h.lastDial
  unfold Rejoins KeepsNetwork
  rw [userStep_rename S h.todo h.shuttingDown, h.port]
  show (s.app.changePeerId newPeerId s.app.node.bootstrapHost bootstrapPort io).node.dialled =
    s.app.node.dialled ++ s.app.node.dialled.getLast?.toList ↔ _
  rw [hDialled, List.append_cancel_left_eq, hLast]
  cases hClick : lastClick bootstrapPort actions with
  | none =>
    refine iff_of_true ?_ ?_
    · unfold AppController.dials
      split <;> rfl
    · intro click hSome
      cases hSome
  | some click =>
    simp only [Option.some_or, Option.toList_some, Option.some.injEq, forall_eq']
    constructor
    · intro hSame
      unfold AppController.dials at hSame
      split at hSame
      · rename_i hDials
        obtain rfl := (List.singleton_inj.mp hSame)
        exact ⟨hDials, rfl, h.host_ne_nil⟩
      · cases hSame
    · rintro ⟨hDials, hPort, hNonempty⟩
      rw [AppController.dials, if_pos hDials, h.clickedHost click hClick hNonempty, ← hPort]

/-- After any clicks and renames the next restart dials the pair dialled last before it, if
and only if the last click since the last dial of a start, if any, used the port of the
launch, and that is one which a start dials. -/
theorem restart_rejoins_iff (peerId : Bytes) (port : Nat) (bootstrapHost bootstrapPort : Bytes)
    (io : StartInput) (actions : List UserAction) (newPeerId : Bytes) (io' : StartInput) :
    (run (userStep S) (started S peerId port bootstrapHost bootstrapPort io) actions).Rejoins S
        newPeerId io' ↔
      KeepsNetwork bootstrapPort actions :=
  (settled_run S peerId port bootstrapHost bootstrapPort io actions).rejoins_iff S newPeerId io'

/-- Launched with the default port, Alice connects to another node; the restart as Bob dials
none. -/
theorem connected_node_not_rejoined :
    ¬ (run (userStep Sodium.additive)
      (started Sodium.additive (bytes "alice") 4222 (bytes "127.0.0.1") (bytes "0")
        { generated := .constant 7 })
      [.connect (wxT "10.0.0.5") (wxT "4222")]).Rejoins Sodium.additive (bytes "bob")
        { generated := .constant 9 } := by
  unfold Rejoins
  decide +kernel

end System

end P2PMessenger
