import Ibdxnet.Lib.Flags

/-!
# The state of a connection to one node

`con::ConnectionState`.  `m_available` is one 32 bit number with three
readings: below `connectionAvailable` there is no connection to hand out
(`connectionNotAvailable`, or `connectionClosing` less the handles returned
since), from there on it counts the handles that are out.

The exchange flags are two bits, "this instance is connected to the remote" and
"the remote is connected to this instance".  Every test and every update of
them is stated by `Flags.Within`:

    s.isConnectedToRemote   ↔  Within exchgFlagConnectedToRemote s.exchgFlags
    Within exchgFlagCompleted f  ↔  both flags are within f
-/

namespace Ibdxnet.Con

open Flags

/-- `ConnectionState::State` -/
inductive State
  | notAvailable
  | inCreation
  | created
  | connected
  deriving DecidableEq, Repr

/-- The value of the enumerator. -/
def State.val : State → Nat
  | notAvailable => 0
  | inCreation => 1
  | created => 2
  | connected => 3

/-- What is stored when `x` is written to an `int32_t`. -/
def int32 (x : Int) : Int := (x + 2 ^ 31) % 2 ^ 32 - 2 ^ 31

theorem int32_of_mem {x : Int} (hlower : -2 ^ 31 ≤ x) (hupper : x < 2 ^ 31) : int32 x = x := by
  unfold int32
  omega

/-- `CONNECTION_NOT_AVAILABLE`, `INT32_MIN` -/
def connectionNotAvailable : Int := -2 ^ 31

/-- `CONNECTION_AVAILABLE` -/
def connectionAvailable : Int := 0

/-- `CONNECTION_CLOSING`, `INT32_MIN / 2` -/
def connectionClosing : Int := -2 ^ 30

/-- The exchange flags, a `uint8_t`. -/
abbrev ExchgFlags := BitVec 8

/-- `e_ExchgFlagConnectedToRemote` -/
def exchgFlagConnectedToRemote : ExchgFlags := 1 <<< 0

/-- `e_ExchgFlagRemoteConnected` -/
def exchgFlagRemoteConnected : ExchgFlags := 1 <<< 1

/-- `e_ExchgFlagCompleted` -/
def exchgFlagCompleted : ExchgFlags := exchgFlagConnectedToRemote ||| exchgFlagRemoteConnected

/-- `ConnectionState`, with the values of its constructor. -/
structure ConnectionState where
  state : State := .notAvailable
  triggerReExchange : Bool := false
  exchgFlags : ExchgFlags := 0
  remoteExchgFlags : ExchgFlags := 0
  available : Int := connectionNotAvailable
  deriving DecidableEq, Repr

namespace ConnectionState

variable (s : ConnectionState)

def isRemoteConnectedToCurrent (remoteState : ExchgFlags) : Bool :=
  remoteState &&& exchgFlagConnectedToRemote != 0

def connectionExchgComplete : Bool :=
  s.exchgFlags == exchgFlagCompleted && s.remoteExchgFlags == exchgFlagCompleted

def isFlagSet (flag : ExchgFlags) : Bool := s.exchgFlags &&& flag != 0

def isConnectedToRemote : Bool := s.isFlagSet exchgFlagConnectedToRemote

def isRemoteConnected : Bool := s.isFlagSet exchgFlagRemoteConnected

def flagConnectionExchgState (flag : ExchgFlags) : ConnectionState :=
  { s with exchgFlags := s.exchgFlags ||| flag }

def setConnectedToRemote : ConnectionState :=
  s.flagConnectionExchgState exchgFlagConnectedToRemote

def setRemoteConnected : ConnectionState :=
  s.flagConnectionExchgState exchgFlagRemoteConnected

/-- The compare exchange of `GetConnection` that starts a creation. -/
def requestCreation : ConnectionState :=
  if s.state = .notAvailable then { s with state := .inCreation } else s

/-- The compare exchange of a `GetConnection` that gives up on the creation. -/
def giveUpCreation : ConnectionState :=
  if s.state = .inCreation then { s with state := .notAvailable } else s

/-- `m_available >= CONNECTION_AVAILABLE`, as `IsConnectionAvailable` reads it. -/
def isAvailable : Bool := decide (connectionAvailable ≤ s.available)

@[simp] theorem requestCreation_available : s.requestCreation.available = s.available := by
  unfold requestCreation
  split <;> rfl

@[simp] theorem giveUpCreation_available : s.giveUpCreation.available = s.available := by
  unfold giveUpCreation
  split <;> rfl

@[simp] theorem requestCreation_triggerReExchange :
    s.requestCreation.triggerReExchange = s.triggerReExchange := by
  unfold requestCreation
  split <;> rfl

@[simp] theorem giveUpCreation_triggerReExchange :
    s.giveUpCreation.triggerReExchange = s.triggerReExchange := by
  unfold giveUpCreation
  split <;> rfl

/-! ## The flags -/

theorem isRemoteConnectedToCurrent_iff :
    ∀ f, isRemoteConnectedToCurrent f = true ↔ Within exchgFlagConnectedToRemote f := by
  decide +kernel

variable {s}

theorem isConnectedToRemote_iff :
    s.isConnectedToRemote = true ↔ Within exchgFlagConnectedToRemote s.exchgFlags :=
  isRemoteConnectedToCurrent_iff s.exchgFlags

theorem isRemoteConnected_iff :
    s.isRemoteConnected = true ↔ Within exchgFlagRemoteConnected s.exchgFlags := by
  have h : ∀ f : ExchgFlags,
      (f &&& exchgFlagRemoteConnected != 0) = true ↔ Within exchgFlagRemoteConnected f := by
    decide +kernel
  exact h s.exchgFlags

theorem completed_within_iff {f : ExchgFlags} :
    Within exchgFlagCompleted f ↔
      Within exchgFlagConnectedToRemote f ∧ Within exchgFlagRemoteConnected f :=
  or_within

theorem not_connectedToRemote_within_zero : ¬ Within exchgFlagConnectedToRemote 0 := by decide

theorem not_remoteConnected_within_zero : ¬ Within exchgFlagRemoteConnected 0 := by decide

/-- Only the two flags exist. -/
def Proper (f : ExchgFlags) : Prop := Within f exchgFlagCompleted

theorem proper_zero : Proper 0 := zero_within _

theorem Proper.or {f g : ExchgFlags} (hf : Proper f) (hg : Proper g) : Proper (f ||| g) :=
  or_within.mpr ⟨hf, hg⟩

theorem proper_connectedToRemote : Proper exchgFlagConnectedToRemote := within_or_left ..

theorem proper_remoteConnected : Proper exchgFlagRemoteConnected := within_or_right ..

theorem Proper.eq_completed_iff {f : ExchgFlags} (hf : Proper f) :
    f = exchgFlagCompleted ↔ Within exchgFlagCompleted f := by
  constructor
  · rintro rfl
    exact .refl _
  · exact hf.antisymm

/-- Setting one of the two flags leaves the other one as it is. -/
theorem remoteConnected_within_or_iff :
    ∀ f : ExchgFlags, Within exchgFlagRemoteConnected (f ||| exchgFlagConnectedToRemote) ↔
      Within exchgFlagRemoteConnected f := by
  decide +kernel

theorem connectionExchgComplete_iff :
    s.connectionExchgComplete = true ↔
      s.exchgFlags = exchgFlagCompleted ∧ s.remoteExchgFlags = exchgFlagCompleted := by
  simp [connectionExchgComplete]

end ConnectionState

end Ibdxnet.Con
