import Mathlib.Data.Finmap
import Mathlib.Data.Finset.Sort
import Mathlib.Data.String.Basic
import Mathlib.Tactic.Common

/-!
# Target — the configuration of an NVMe-oF target, and its RPCs

What the scripts see of a running target is its configuration: block devices, subsystems with their
namespaces and listeners, and transports.  `Target.Accepts` says when an RPC succeeds and
`Target.effect` what it then does.  The target itself is not part of the repository: it is a `Server`
with a state of its own, and `Server.Documented` is all that is assumed of it.
-/

namespace HelloEbpf
namespace Spdk

/-! ## Configurations -/

/-- A transport type. The RPCs compare their names without regard to case. -/
inductive Trtype where
  | tcp
  | rdma
  | other (name : String)
  deriving DecidableEq, Repr

structure Bdev where
  sizeMb : Nat
  blockSize : Nat
  deriving DecidableEq, Repr

structure Transport where
  ioUnitSize : Nat
  maxIoQpairsPerCtrlr : Nat
  inCapsuleDataSize : Nat
  deriving DecidableEq, Repr

structure Listener where
  trtype : Trtype
  traddr : String
  trsvcid : String
  deriving DecidableEq, Repr

/-- A subsystem. Its namespaces are named by the block devices behind them, and `hosts` are the NQNs of
the hosts on its list. -/
structure Subsystem where
  allowAnyHost : Bool
  hosts : Finset String
  serialNumber : String
  modelNumber : String
  namespaces : Finset String
  listeners : Finset Listener
  deriving DecidableEq

/-- The host of this NQN may connect. -/
def Subsystem.Admits (sub : Subsystem) (hostNqn : String) : Prop :=
  sub.allowAnyHost = true ∨ hostNqn ∈ sub.hosts

instance (sub : Subsystem) (hostNqn : String) : Decidable (sub.Admits hostNqn) :=
  inferInstanceAs (Decidable (sub.allowAnyHost = true ∨ hostNqn ∈ sub.hosts))

abbrev Subsystems : Type :=
  Finmap fun _ : String => Subsystem

/-- The configuration; block devices go by name and subsystems by NQN. -/
structure Target where
  bdevs : Finmap fun _ : String => Bdev
  subsystems : Subsystems
  transports : Finmap fun _ : Trtype => Transport

/-! ## RPCs -/

/-- The calls of `rpc.py` the scripts make. -/
inductive Rpc where
  | bdevGetBdevs (name : String)
  | bdevMallocCreate (name : String) (bdev : Bdev)
  | nvmfGetSubsystems
  | nvmfCreateSubsystem (nqn : String) (allowAnyHost : Bool) (serialNumber modelNumber : String)
  | nvmfSubsystemAddNs (nqn bdevName : String)
  | nvmfCreateTransport (trtype : Trtype) (transport : Transport)
  | nvmfSubsystemAddListener (nqn : String) (listener : Listener)
  deriving DecidableEq, Repr

namespace Target

/-- Some subsystem has the block device as a namespace. -/
def Claimed (t : Target) (bdevName : String) : Prop :=
  ∃ nqn ∈ t.subsystems.keys, ∃ sub ∈ t.subsystems.lookup nqn, bdevName ∈ sub.namespaces

instance (t : Target) (bdevName : String) : Decidable (t.Claimed bdevName) :=
  inferInstanceAs (Decidable (∃ nqn ∈ t.subsystems.keys, ∃ sub ∈ t.subsystems.lookup nqn,
    bdevName ∈ sub.namespaces))

/-- The call succeeds. -/
def Accepts (t : Target) : Rpc → Prop
  | .bdevGetBdevs name => name ∈ t.bdevs
  | .bdevMallocCreate name _ => name ∉ t.bdevs
  | .nvmfGetSubsystems => True
  | .nvmfCreateSubsystem nqn _ _ _ => nqn ∉ t.subsystems
  | .nvmfSubsystemAddNs nqn bdevName =>
      nqn ∈ t.subsystems ∧ bdevName ∈ t.bdevs ∧ ¬ t.Claimed bdevName
  | .nvmfCreateTransport trtype _ => trtype ∉ t.transports
  | .nvmfSubsystemAddListener nqn listener =>
      (∃ sub ∈ t.subsystems.lookup nqn, listener ∉ sub.listeners) ∧ listener.trtype ∈ t.transports

instance (t : Target) : DecidablePred t.Accepts
  | .bdevGetBdevs name => inferInstanceAs (Decidable (name ∈ t.bdevs))
  | .bdevMallocCreate name _ => inferInstanceAs (Decidable (name ∉ t.bdevs))
  | .nvmfGetSubsystems => inferInstanceAs (Decidable True)
  | .nvmfCreateSubsystem nqn _ _ _ => inferInstanceAs (Decidable (nqn ∉ t.subsystems))
  | .nvmfSubsystemAddNs nqn bdevName => inferInstanceAs (Decidable
      (nqn ∈ t.subsystems ∧ bdevName ∈ t.bdevs ∧ ¬ t.Claimed bdevName))
  | .nvmfCreateTransport trtype _ => inferInstanceAs (Decidable (trtype ∉ t.transports))
  | .nvmfSubsystemAddListener nqn listener => inferInstanceAs (Decidable
      ((∃ sub ∈ t.subsystems.lookup nqn, listener ∉ sub.listeners) ∧
        listener.trtype ∈ t.transports))

/-- Change one subsystem, if there is one of this name. -/
def modifySubsystem (t : Target) (nqn : String) (f : Subsystem → Subsystem) : Target :=
  match t.subsystems.lookup nqn with
  | none => t
  | some sub => { t with subsystems := t.subsystems.insert nqn (f sub) }

/-- What a call that succeeds does to the configuration. -/
def effect (t : Target) : Rpc → Target
  | .bdevGetBdevs _ => t
  | .bdevMallocCreate name bdev => { t with bdevs := t.bdevs.insert name bdev }
  | .nvmfGetSubsystems => t
  | .nvmfCreateSubsystem nqn allowAnyHost serialNumber modelNumber =>
      { t with
        subsystems := t.subsystems.insert nqn
          { allowAnyHost := allowAnyHost
            hosts := ∅
            serialNumber := serialNumber
            modelNumber := modelNumber
            namespaces := ∅
            listeners := ∅ } }
  | .nvmfSubsystemAddNs nqn bdevName =>
      t.modifySubsystem nqn fun sub => { sub with namespaces := insert bdevName sub.namespaces }
  | .nvmfCreateTransport trtype transport =>
      { t with transports := t.transports.insert trtype transport }
  | .nvmfSubsystemAddListener nqn listener =>
      t.modifySubsystem nqn fun sub => { sub with listeners := insert listener sub.listeners }

/-- The configuration after a call, whether it succeeds or not. -/
def attempt (t : Target) (rpc : Rpc) : Target :=
  if t.Accepts rpc then t.effect rpc else t

theorem attempt_of_accepts {t : Target} {rpc : Rpc} (h : t.Accepts rpc) :
    t.attempt rpc = t.effect rpc :=
  if_pos h

theorem attempt_of_rejects {t : Target} {rpc : Rpc} (h : ¬ t.Accepts rpc) : t.attempt rpc = t :=
  if_neg h

end Target

/-! ## Servers -/

/-- What a call returns: exit status and output of `rpc.py`, and the next state of the target. -/
structure Reply (σ : Type*) where
  status : Nat
  stdout : List (List Char)
  state : σ

/-- A running target. -/
structure Server (σ : Type*) where
  config : σ → Target
  exec : Rpc → σ → Reply σ
  listing : σ → List (List Char)

/-- A call either succeeds with its effect or fails and leaves the configuration as it is.  The list of
the subsystems shows each NQN and whatever else the target knows of them; a call that leaves them alone
leaves the list alone. -/
structure Server.Documented {σ : Type*} (srv : Server σ) : Prop where
  success : ∀ s rpc, (srv.config s).Accepts rpc →
    (srv.exec rpc s).status = 0 ∧ srv.config (srv.exec rpc s).state = (srv.config s).effect rpc
  failure : ∀ s rpc, ¬ (srv.config s).Accepts rpc →
    (srv.exec rpc s).status ≠ 0 ∧ srv.config (srv.exec rpc s).state = srv.config s
  stdout_getSubsystems : ∀ s,
    (srv.exec .nvmfGetSubsystems s).stdout = srv.listing s
  listing_nqn : ∀ s nqn, nqn ∈ (srv.config s).subsystems →
    ∃ line ∈ srv.listing s, nqn.toList <:+: line
  listing_exec : ∀ s rpc,
    (srv.config (srv.exec rpc s).state).subsystems = (srv.config s).subsystems →
      srv.listing (srv.exec rpc s).state = srv.listing s

/-- The calls, executed on the configuration itself; the list has one line for each subsystem. -/
def plainServer : Server Target where
  config := id
  exec := fun rpc t =>
    { status := if t.Accepts rpc then 0 else 1
      stdout :=
        match rpc with
        | .nvmfGetSubsystems => (t.subsystems.keys.sort (· ≤ ·)).map String.toList
        | _ => []
      state := t.attempt rpc }
  listing := fun t => (t.subsystems.keys.sort (· ≤ ·)).map String.toList

theorem plainServer_documented : plainServer.Documented := by
  refine ⟨?_, ?_, fun _ => rfl, ?_, ?_⟩
  · intro t rpc h
    have haccepts : t.Accepts rpc := h
    simp [plainServer, Target.attempt, haccepts]
  · intro t rpc h
    have hrejects : ¬ t.Accepts rpc := h
    simp [plainServer, Target.attempt, hrejects]
  · intro t nqn hmem
    refine ⟨nqn.toList, List.mem_map_of_mem ?_, List.infix_rfl⟩
    exact (Finset.mem_sort _).2 (Finmap.mem_keys.2 hmem)
  · intro t rpc hsame
    exact congrArg (fun subsystems : Subsystems =>
      (subsystems.keys.sort (· ≤ ·)).map String.toList) hsame

end Spdk
end HelloEbpf
