import HelloEbpf.Bre
import HelloEbpf.Shell.Code
import HelloEbpf.Spdk.Target

/-!
# StartTarget — `scripts/start_spdk_tgt.sh`

The script starts a target if none is running and configures it by RPC, on a machine of which two
things change: the state of the target, and what the script has said on standard output.  What the
tools it calls print goes to the terminal or to `/dev/null` and is left out, but for the list of the
subsystems, which goes through `grep`.

`startSpdkTgtCode` is the script command by command, `startSpdkTgt` what it does where it runs alone.
-/

namespace HelloEbpf
namespace Spdk

open Shell Code

/-! ## The host -/

/-- What the script finds and cannot change. `boot` is the target that `nvmf_tgt` with an empty
configuration has become after the three seconds of startup, if it came up. -/
structure Host (σ : Type*) where
  spdkDirVar : String
  rpcPyExists : Bool
  setupStatus : Nat
  targetPid : Nat
  boot : Option σ

/-- `${SPDK_DIR:-./spdk}`. -/
def Host.spdkDir {σ : Type*} (host : Host σ) : String :=
  if host.spdkDirVar = "" then "./spdk" else host.spdkDirVar

def Host.rpcPy {σ : Type*} (host : Host σ) : String :=
  host.spdkDir ++ "/scripts/rpc.py"

/-- The running target, if there is one, and the lines said so far. -/
structure Machine (σ : Type*) where
  target : Option σ
  said : List String

/-- The machine after a line on standard output. -/
def Machine.say {σ : Type*} (m : Machine σ) (text : String) : Machine σ :=
  { m with said := m.said ++ [text] }

/-! ## Commands -/

section Commands

variable {σ : Type*} (srv : Server σ) (host : Host σ)

def echo (text : String) : Cmd (Machine σ) :=
  fun m => (0, m.say text)

/-- `[ -f "$RPC_PY" ]`. -/
def rpcPyIsFile : Cmd (Machine σ) :=
  fun m => (if host.rpcPyExists then 0 else 1, m)

/-- `sudo "$SPDK_DIR/scripts/setup.sh"`. -/
def setup : Cmd (Machine σ) :=
  fun m => (host.setupStatus, m)

/-- `pgrep -x "nvmf_tgt"`. -/
def pgrep : Cmd (Machine σ) :=
  fun m => (if m.target.isSome then 0 else 1, m)

/-- `nvmf_tgt … &`: what is started in the background does not fail. -/
def launch : Cmd (Machine σ) :=
  fun m => (0, { m with target := host.boot })

/-- `sudo "$RPC_PY" …`, which needs a target to talk to. -/
def rpc (call : Rpc) : Cmd (Machine σ) :=
  fun m =>
    match m.target with
    | none => (1, m)
    | some s => ((srv.exec call s).status, { m with target := some (srv.exec call s).state })

/-- The output of `sudo "$RPC_PY" nvmf_get_subsystems`. -/
def getSubsystems : Machine σ → List (List Char) × Machine σ :=
  fun m =>
    match m.target with
    | none => ([], m)
    | some s =>
        ((srv.exec .nvmfGetSubsystems s).stdout,
          { m with target := some (srv.exec .nvmfGetSubsystems s).state })

end Commands

/-! ## The script -/

def subsysNqn : String :=
  "nqn.2016-06.io.spdk:cnode1"

theorem subsysNqn_plain : ∀ c ∈ subsysNqn.toList, c ∉ Bre.special := by
  have hall : subsysNqn.toList.all (fun c => decide (c ∉ Bre.special)) = true := by decide
  intro c hc
  exact of_decide_eq_true (List.all_eq_true.1 hall c hc)

/-- `"$SUBSYS_NQN"` as `grep` reads it. -/
def subsysPattern : Bre.Pattern :=
  { source := subsysNqn.toList
    plain := subsysNqn_plain }

def malloc0 : Rpc :=
  .bdevMallocCreate "Malloc0" { sizeMb := 64, blockSize := 512 }

def cnode1 : Rpc :=
  .nvmfCreateSubsystem subsysNqn true "SPDK00000000000001" "SPDK_Controller1"

def namespace1 : Rpc :=
  .nvmfSubsystemAddNs subsysNqn "Malloc0"

def tcpTransport : Rpc :=
  .nvmfCreateTransport .tcp { ioUnitSize := 16384, maxIoQpairsPerCtrlr := 8, inCapsuleDataSize := 8192 }

def tcpListener : Listener :=
  { trtype := .tcp, traddr := "127.0.0.1", trsvcid := "4420" }

def listener1 : Rpc :=
  .nvmfSubsystemAddListener subsysNqn tcpListener

def readyLine : String :=
  "SPDK NVMe-oF Target is READY."

section Source

variable {σ : Type*} (srv : Server σ) (host : Host σ)

def checkRpcPy : Code (Machine σ) :=
  cond (rpcPyIsFile host).not
    (block [
      run (echo ("Error: SPDK RPC script not found at " ++ host.rpcPy)),
      exited 1])
    (block [])

def setupHugepages : Code (Machine σ) :=
  block [
    run (echo "Setting up hugepages..."),
    run (setup host)]

def startTarget : Code (Machine σ) :=
  cond pgrep
    (run (echo "nvmf_tgt is already running."))
    (block [
      run (echo "Starting nvmf_tgt..."),
      run (launch host),
      run (echo ("Started nvmf_tgt with PID " ++ toString host.targetPid ++
        ". Waiting for startup..."))])

def createBdev : Code (Machine σ) :=
  cond (rpc srv (.bdevGetBdevs "Malloc0")).not
    (block [
      run (echo "Creating 64MB Malloc Bdev 'Malloc0'..."),
      run (rpc srv malloc0)])
    (run (echo "Malloc0 already exists."))

def createSubsystem : Code (Machine σ) :=
  cond (Cmd.pipe (getSubsystems srv) (Bre.grepQ subsysPattern)).not
    (block [
      run (echo ("Creating Subsystem " ++ subsysNqn ++ "...")),
      run (rpc srv cnode1)])
    (run (echo "Subsystem already exists."))

def addNamespace : Code (Machine σ) :=
  block [
    run (echo "Adding Malloc0 to Subsystem..."),
    orElse (rpc srv namespace1) (echo "Namespace add failed (might be already added)")]

def addListener : Code (Machine σ) :=
  block [
    run (echo "Adding TCP Listener at 127.0.0.1:4420..."),
    orElse (rpc srv tcpTransport) (echo "Transport create failed (might exist)"),
    orElse (rpc srv listener1) (echo "Listener add failed (might exist)")]

def printSummary : Code (Machine σ) :=
  block [
    run (echo "---------------------------------------------------"),
    run (echo readyLine),
    run (echo ("Subsystem NQN: " ++ subsysNqn)),
    run (echo "Address:       127.0.0.1:4420"),
    run (echo "---------------------------------------------------")]

/-- The whole script. -/
def startSpdkTgtCode : Code (Machine σ) :=
  block [
    -- Check if RPC script exists
    checkRpcPy host,
    run (echo ("Using SPDK at: " ++ host.spdkDir)),
    -- 1. Setup Hugepages
    setupHugepages host,
    -- 2. Start Target
    startTarget host,
    -- 3. Configure Target via RPC
    createBdev srv,
    createSubsystem srv,
    addNamespace srv,
    addListener srv,
    printSummary]

/-- The script, run alone. -/
def startSpdkTgt : Script (Machine σ) :=
  (startSpdkTgtCode srv host).eval

end Source

end Spdk
end HelloEbpf
