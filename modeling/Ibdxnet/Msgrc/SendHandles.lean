import Ibdxnet.Msgrc.SendAccounting

/-!
# Handles the send dispatcher takes and returns

Each connection `GetConnection` gives to `Dispatch` is counted in `m_available`
until `ReturnConnection` is called.  `net` is what a list of calls adds to that
count.  The return stands between `__SendData` and the poll, and once more in
the handler of a `DisconnectedException`, for any call that got a connection:

    GetConnection throws, or nothing to send     net 0
    __SendData throws                            net 1
    the poll throws a DisconnectedException      net -1
    otherwise                                    net 0

So a call is balanced exactly when none of the two happens
(`net_dispatch_iff`).
-/

namespace Ibdxnet.Msgrc

open Ibdxnet.Con Sys

namespace ConnectionCall

def isGetConnection : ConnectionCall → Bool
  | getConnection _ => true
  | _ => false

def isReturnConnection : ConnectionCall → Bool
  | returnConnection _ => true
  | _ => false

/-- What the calls add to `m_available`: handles taken less handles returned. -/
def net (calls : List ConnectionCall) : Int :=
  calls.countP isGetConnection - calls.countP isReturnConnection

@[simp] theorem net_nil : net [] = 0 := rfl

theorem net_append (calls calls' : List ConnectionCall) :
    net (calls ++ calls') = net calls + net calls' := by
  simp only [net, List.countP_append]
  omega

@[simp] theorem net_getConnection (nodeId : NodeId) : net [.getConnection nodeId] = 1 := rfl

@[simp] theorem net_returnConnection (nodeId : NodeId) : net [.returnConnection nodeId] = -1 := rfl

@[simp] theorem net_closeConnection (nodeId : NodeId) (force : Bool) :
    net [.closeConnection nodeId force] = 0 := rfl

end ConnectionCall

namespace SendWorld

open ConnectionCall (net net_append net_getConnection net_returnConnection net_closeConnection)

/-! ## Parts that call nothing -/

/-- The calls made and the local `connection` stay. -/
def KeepsCalls (w w' : SendWorld) : Prop := w'.calls = w.calls ∧ w'.connection = w.connection

theorem KeepsCalls.refl (w : SendWorld) : KeepsCalls w w := ⟨rfl, rfl⟩

theorem KeepsCalls.trans {w w₁ w₂ : SendWorld} (h : KeepsCalls w w₁) (h' : KeepsCalls w₁ w₂) :
    KeepsCalls w w₂ :=
  ⟨h'.1.trans h.1, h'.2.trans h.2⟩

section
variable (cfg : SendConfig) (env : DispatchEnv) (connection : Connection)
  (workPackage : NextWorkPackage) (w : SendWorld)

theorem keepsCalls_onDispatcher {α : Type} (x : EStateM Exception SendDispatcher α) :
    KeepsCalls w (Exec.final ((onDispatcher x).run w)) := by
  rw [onDispatcher, Exec.run_zoom]
  cases x.run w.dispatcher with
  | ok => exact ⟨rfl, rfl⟩
  | error => exact ⟨rfl, rfl⟩

theorem keepsCalls_sendDataPostWorkRequests (chunks : Nat) :
    KeepsCalls w (Exec.final ((sendDataPostWorkRequests cfg env connection chunks).run w)) := by
  simp only [sendDataPostWorkRequests, EStateM.run_bind, EStateM.run_modify, EStateM.run_get]
  cases env.postSend with
  | success => exact ⟨rfl, rfl⟩
  | failure enomem accepted => cases enomem <;> exact ⟨rfl, rfl⟩

theorem keepsCalls_sendData :
    KeepsCalls w (Exec.final ((sendData cfg env connection workPackage).run w)) := by
  refine Exec.final_bind (R := KeepsCalls) KeepsCalls.trans (keepsCalls_onDispatcher w _)
    fun chunks w₁ => ?_
  rw [Exec.run_ite]
  split
  · exact Exec.final_bind (R := KeepsCalls) KeepsCalls.trans
      (keepsCalls_sendDataPostWorkRequests cfg env connection w₁ chunks) fun _ w₂ => .refl w₂
  · exact .refl w₁

theorem keepsCalls_pollCompletions :
    KeepsCalls w (Exec.final ((pollCompletions cfg env).run w)) := by
  rw [run_pollCompletions]
  split
  · split
    · exact .refl w
    · cases w.completed cfg env with
      | ok => exact ⟨rfl, rfl⟩
      | error => exact ⟨rfl, rfl⟩
  · exact .refl w

/-- Any other exception than a `DisconnectedException` is thrown on, or polled over. -/
theorem keepsCalls_catchDispatch {e : Exception} (he : ∀ nodeId, e ≠ .disconnected nodeId) :
    KeepsCalls w (Exec.final ((catchDispatch cfg env e).run w)) := by
  cases e with
  | disconnected nodeId => exact absurd rfl (he nodeId)
  | timeout => exact keepsCalls_pollCompletions cfg env w
  | illegalState | poolIllegalState | ibException | ibQueueFull | invalidNodeId
  | nodeNotAvailable | formatError => exact .refl w

end

theorem net_disconnect (w : SendWorld) (nodeId : NodeId) :
    net (w.disconnect nodeId).calls =
      net w.calls - if w.connection.isSome then 1 else 0 := by
  cases hc : w.connection with
  | none => simp [disconnect, hc, net_append]
  | some c =>
    simp only [disconnect, hc, net_append, Option.toList_some, List.map_cons, List.map_nil,
      net_returnConnection, net_closeConnection, Option.isSome_some, if_true]
    omega

/-! ## One call -/

/-- The call of `GetConnection` for the package returns a connection: then
`__SendData` returns, and the poll after it does not throw a
`DisconnectedException`. -/
def HandleReturned (cfg : SendConfig) (w : SendWorld) (env : DispatchEnv) : Prop :=
  ∀ workPackage c connection, env.workPackage = some workPackage →
    workPackage.nodeId ≠ nodeIdInvalid → env.getConnection = .ok c →
    connection = { c with remoteNodeId := workPackage.nodeId } →
    ∃ ret w₁, (sendData cfg env connection workPackage).run
        (w.beginDispatch.connect connection) = .ok ret w₁ ∧
      ∀ nodeId w₂, (pollCompletions cfg env).run
        { w₁ with calls := w₁.calls ++ [.returnConnection workPackage.nodeId] } ≠
          .error (.disconnected nodeId) w₂

section
variable {cfg : SendConfig} {env : DispatchEnv} {workPackage : NextWorkPackage} {w w' : SendWorld}

/-- The handlers, when no `DisconnectedException` is thrown. -/
theorem net_catchDispatch_of_ne {x : EStateM Exception SendWorld Bool}
    (h : ∀ nodeId w₁, x.run w ≠ .error (.disconnected nodeId) w₁) :
    net (Exec.final ((tryCatch x (catchDispatch cfg env)).run w)).calls =
      net (Exec.final (x.run w)).calls := by
  rw [Exec.run_tryCatch]
  cases hx : x.run w with
  | ok b w₁ => rfl
  | error e w₁ =>
    refine congrArg net (keepsCalls_catchDispatch cfg env w₁ fun nodeId he => ?_).1
    exact h nodeId w₁ (he ▸ hx)

/-- The handlers, when one is thrown. -/
theorem net_catchDispatch_disconnected {x : EStateM Exception SendWorld Bool} {nodeId : NodeId}
    {w₁ : SendWorld} (h : x.run w = .error (.disconnected nodeId) w₁) :
    net (Exec.final ((tryCatch x (catchDispatch cfg env)).run w)).calls =
      net w₁.calls - if w₁.connection.isSome then 1 else 0 := by
  rw [Exec.run_tryCatch, h]
  simp only [run_catchDispatch_disconnected, Exec.final_ok, net_disconnect]

/-- The handlers return nothing when `connection` is null. -/
theorem net_catchDispatch_of_none {x : EStateM Exception SendWorld Bool}
    (h : (Exec.final (x.run w)).connection = none) :
    net (Exec.final ((tryCatch x (catchDispatch cfg env)).run w)).calls =
      net (Exec.final (x.run w)).calls := by
  by_cases hd : ∃ nodeId w₁, x.run w = .error (.disconnected nodeId) w₁
  · obtain ⟨nodeId, w₁, hx⟩ := hd
    rw [net_catchDispatch_disconnected hx, hx, Exec.final_error]
    rw [hx, Exec.final_error] at h
    simp [h]
  · exact net_catchDispatch_of_ne fun nodeId w₁ hx => hd ⟨nodeId, w₁, hx⟩

/-- The `try` block once `GetConnection` has returned. -/
theorem run_tryDispatch_of_connection {c : Connection} (hne : workPackage.nodeId ≠ nodeIdInvalid)
    (hc : env.getConnection = .ok c) :
    (tryDispatch cfg env workPackage).run w =
      (do
        let ret ← sendData cfg env { c with remoteNodeId := workPackage.nodeId } workPackage
        call (.returnConnection workPackage.nodeId)
        let polled ← pollCompletions cfg env
        pure (polled || ret)).run (w.connect { c with remoteNodeId := workPackage.nodeId }) := by
  rw [tryDispatch, Exec.run_ite, if_neg hne, EStateM.run_bind, getConnection, hc]
  rfl

/-- A call in which `GetConnection` has returned. -/
theorem net_tryDispatch_iff {c connection : Connection} (hne : workPackage.nodeId ≠ nodeIdInvalid)
    (hc : env.getConnection = .ok c)
    (hconnection : connection = { c with remoteNodeId := workPackage.nodeId }) :
    net (Exec.final ((tryCatch (tryDispatch cfg env workPackage) (catchDispatch cfg env)).run
        w)).calls = net w.calls ↔
      ∃ ret w₁, (sendData cfg env connection workPackage).run (w.connect connection) =
          .ok ret w₁ ∧
        ∀ nodeId w₂, (pollCompletions cfg env).run
          { w₁ with calls := w₁.calls ++ [.returnConnection workPackage.nodeId] } ≠
            .error (.disconnected nodeId) w₂ := by
  have htry : (tryDispatch cfg env workPackage).run w = _ := run_tryDispatch_of_connection hne hc
  have hkeeps := keepsCalls_sendData cfg env connection workPackage (w.connect connection)
  have hget : net (w.connect connection).calls = net w.calls + 1 := by
    rw [connect, net_append, net_getConnection]
  rw [← hconnection, EStateM.run_bind] at htry
  cases hsend : (sendData cfg env connection workPackage).run (w.connect connection) with
  | error e w₁ =>
    -- no handler returns the connection
    rw [hsend] at htry hkeeps
    have he : ∀ nodeId w₂, (tryDispatch cfg env workPackage).run w ≠
        .error (.disconnected nodeId) w₂ := by
      intro nodeId w₂ hr
      rw [htry] at hr
      cases hr
      exact sendData_throws cfg env _ _ _ _ _ hsend trivial
    have hnet : net w₁.calls = net w.calls + 1 := (congrArg net hkeeps.1).trans hget
    rw [net_catchDispatch_of_ne he, htry, Exec.final_error, hnet]
    refine iff_of_false (by omega) ?_
    rintro ⟨ret, w₂, hr, -⟩
    cases hr
  | ok ret w₁ =>
    rw [hsend] at htry hkeeps
    have hnet : net (w₁.calls ++ [.returnConnection workPackage.nodeId]) = net w.calls := by
      have hsent : net w₁.calls = net w.calls + 1 := (congrArg net hkeeps.1).trans hget
      rw [net_append, net_returnConnection, hsent]
      omega
    have hsome : w₁.connection = some connection := hkeeps.2
    have hpoll := keepsCalls_pollCompletions cfg env
      { w₁ with calls := w₁.calls ++ [.returnConnection workPackage.nodeId] }
    simp only [call, EStateM.run_bind, EStateM.run_modify] at htry
    cases hp : (pollCompletions cfg env).run
        { w₁ with calls := w₁.calls ++ [.returnConnection workPackage.nodeId] } with
    | ok b w₂ =>
      rw [hp] at htry hpoll
      have hcalls : net w₂.calls = net w.calls := (congrArg net hpoll.1).trans hnet
      rw [net_catchDispatch_of_ne (fun _ _ hr => by rw [htry] at hr; cases hr), htry]
      exact iff_of_true hcalls ⟨ret, w₁, rfl, fun _ _ h => by rw [hp] at h; cases h⟩
    | error e w₂ =>
      rw [hp] at htry hpoll
      have hcalls : net w₂.calls = net w.calls := (congrArg net hpoll.1).trans hnet
      by_cases he : ∃ nodeId, e = .disconnected nodeId
      · -- returned once more
        obtain ⟨nodeId, rfl⟩ := he
        have hsome₂ : w₂.connection = some connection := hpoll.2.trans hsome
        rw [net_catchDispatch_disconnected htry, hcalls, hsome₂]
        refine iff_of_false (by simp) ?_
        rintro ⟨ret', w₁', hr, hno⟩
        cases hr
        exact hno nodeId w₂ hp
      · have hne' : ∀ nodeId w₃, (tryDispatch cfg env workPackage).run w ≠
            .error (.disconnected nodeId) w₃ := by
          intro nodeId w₃ hr
          rw [htry] at hr
          cases hr
          exact he ⟨nodeId, rfl⟩
        rw [net_catchDispatch_of_ne hne', htry]
        refine iff_of_true hcalls ⟨ret, w₁, rfl, fun nodeId w₃ h => ?_⟩
        rw [hp] at h
        cases h
        exact he ⟨nodeId, rfl⟩

/-- **A call of `Dispatch` is balanced exactly when `__SendData` returns and the
poll after it does not find a disconnect.** -/
theorem net_dispatch_iff :
    net (Exec.final ((dispatch cfg env).run w)).calls = net w.calls ↔
      HandleReturned cfg w env := by
  unfold dispatch
  cases hwp : env.workPackage with
  | none =>
    refine iff_of_true rfl fun workPackage c connection h => ?_
    rw [hwp] at h
    cases h
  | some workPackage =>
    simp only [EStateM.run_bind, EStateM.run_modify]
    by_cases hne : workPackage.nodeId = nodeIdInvalid
    · -- nothing to send
      have htry : (tryDispatch cfg env workPackage).run w.beginDispatch =
          (pollCompletions cfg env).run w.beginDispatch := by
        rw [tryDispatch, Exec.run_ite, if_pos hne]
      have hkeeps := keepsCalls_pollCompletions cfg env w.beginDispatch
      rw [← htry] at hkeeps
      refine iff_of_true ?_ fun workPackage' c connection h hne' => ?_
      · rw [net_catchDispatch_of_none hkeeps.2, hkeeps.1]
        rfl
      · rw [hwp, Option.some.injEq] at h
        exact absurd hne (h ▸ hne')
    · cases hc : env.getConnection with
      | error e =>
        have htry : (tryDispatch cfg env workPackage).run w.beginDispatch =
            .error e w.beginDispatch := by
          rw [tryDispatch, Exec.run_ite, if_neg hne, EStateM.run_bind, getConnection, hc]
          rfl
        refine iff_of_true ?_ fun workPackage' c connection _ _ h => ?_
        · rw [net_catchDispatch_of_none (by rw [htry]; rfl), htry]
          rfl
        · rw [hc] at h
          cases h
      | ok c =>
        refine (net_tryDispatch_iff (w := w.beginDispatch) hne hc rfl).trans ?_
        constructor
        · rintro h workPackage' c' connection hwp' - hc' rfl
          rw [hwp, Option.some.injEq] at hwp'
          rw [hc, Except.ok.injEq] at hc'
          subst hwp' hc'
          exact h
        · exact fun h => h workPackage c _ hwp hne hc rfl

theorem net_step (hs : step cfg w env = some w') (h : HandleReturned cfg w env) :
    net w'.calls = net w.calls := by
  have hbalanced := net_dispatch_iff.mpr h
  unfold step at hs
  cases hr : (dispatch cfg env).run w with
  | ok b w₁ =>
    rw [hr] at hs hbalanced
    obtain rfl := Option.some.inj hs
    exact hbalanced
  | error e w₁ =>
    rw [hr] at hs
    cases hs

end

/-- Each call of `Dispatch`, returned or thrown, takes and returns the same number
of handles exactly when its handle is returned once; over runs of such calls the
dispatcher holds no handle between calls. -/
theorem handles_balanced (cfg : SendConfig) :
    (∀ w env, net (Exec.final ((dispatch cfg env).run w)).calls = net w.calls ↔
      HandleReturned cfg w env) ∧
    ∀ envs w, Lts.exec (step cfg) (init cfg) envs = some w →
      Lts.Along (step cfg) (HandleReturned cfg) (init cfg) envs → net w.calls = 0 := by
  refine ⟨fun w env => net_dispatch_iff, fun envs w hrun halong => ?_⟩
  exact Lts.exec_invariant_along (I := fun w => net w.calls = 0)
    (fun w env w' h hp hs => (net_step hs hp).trans h) rfl halong hrun

/-- Two packages for node 1, with a completion in between. -/
theorem handles_balanced_two : ∃ w,
    Lts.exec (step smallConfig) (init smallConfig)
      [sendTo 1 0 8 [⟨0, .success⟩], sendTo 1 8 20 []] = some w ∧
    net w.calls = 0 := by
  obtain ⟨hcall, hruns⟩ := handles_balanced smallConfig
  have hsome : (Lts.exec (step smallConfig) (init smallConfig)
      [sendTo 1 0 8 [⟨0, .success⟩], sendTo 1 8 20 []]).isSome := by decide +kernel
  obtain ⟨w, hw⟩ := Option.isSome_iff_exists.mp hsome
  refine ⟨w, hw, hruns _ w hw (Lts.along_cons.mpr ⟨(hcall _ _).mp (by decide +kernel), ?_⟩)⟩
  intro t ht
  refine Lts.along_cons.mpr ⟨(hcall _ _).mp ?_, fun _ _ => trivial⟩
  have hsecond : (step smallConfig (init smallConfig) (sendTo 1 0 8 [⟨0, .success⟩])).map
      (fun t => decide (net (Exec.final ((dispatch smallConfig (sendTo 1 8 20 [])).run t)).calls =
        net t.calls)) = some true := by
    decide +kernel
  rw [ht] at hsecond
  simpa using hsecond

/-- The connection of the package has been returned when the poll finds that
node 1 is disconnected; it is returned again. -/
theorem disconnect_returns_twice : ∃ w,
    Lts.exec (step smallConfig) (init smallConfig)
      [sendTo 1 0 8 [⟨0, .success⟩], sendTo 1 8 12 [⟨1, .retryExcErr⟩]] = some w ∧
    w.calls.countP ConnectionCall.isGetConnection = 2 ∧
    w.calls.countP ConnectionCall.isReturnConnection = 3 := by
  have hmap : (Lts.exec (step smallConfig) (init smallConfig)
      [sendTo 1 0 8 [⟨0, .success⟩], sendTo 1 8 12 [⟨1, .retryExcErr⟩]]).map (fun w =>
        (w.calls.countP ConnectionCall.isGetConnection,
          w.calls.countP ConnectionCall.isReturnConnection)) = some (2, 3) := by
    decide +kernel
  obtain ⟨w, hw, hv⟩ := Option.map_eq_some_iff.mp hmap
  simp only [Prod.mk.injEq] at hv
  exact ⟨w, hw, hv⟩

end SendWorld

end Ibdxnet.Msgrc
