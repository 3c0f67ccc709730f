import HelloEbpf.Spdk.StartTarget

/-!
# ConnectHost — `scripts/connect_host.sh`

The script loads the kernel's modules, connects to the subsystem that `start_spdk_tgt.sh` sets up and
lists the devices.  The kernel's initiator and the tools `modprobe` and `nvme` are not part of the
repository: they are an `Initiator` with a state of its own, of which `Initiator.Documented` is all
that is assumed.
-/

namespace HelloEbpf
namespace Nvme

open Shell Code Spdk

/-- The host's side of the connection.  `nvme` talks to the target, if there is one, and says who it is
by `hostNqn`. -/
structure Initiator (σ τ : Type*) where
  hostNqn : String
  available : String → Prop
  loaded : τ → Finset String
  controllers : τ → Finset (String × Listener)
  modprobe : String → τ → Nat × τ
  connect : String → Listener → Option σ → τ → Nat × Option σ × τ
  list : Option σ → τ → Nat × Option σ × τ

/-- A host connects to a subsystem that lets it in and listens at the address, with the module for
the transport, and not a second time. -/
structure CanConnect (t : Target) (hostNqn : String) (loaded : Finset String)
    (controllers : Finset (String × Listener)) (nqn : String) (listener : Listener) : Prop where
  offered : ∃ sub ∈ t.subsystems.lookup nqn, sub.Admits hostNqn ∧ listener ∈ sub.listeners
  loaded : listener.trtype = .tcp → "nvme-tcp" ∈ loaded
  new : (nqn, listener) ∉ controllers

/-- A module is loaded if there is one; a connection makes a controller or fails; neither the
configuration of the target nor any other controller changes. -/
structure Initiator.Documented {σ τ : Type*} (ini : Initiator σ τ) (srv : Server σ) : Prop where
  modprobe_status : ∀ name h, (ini.modprobe name h).1 = 0 ↔ ini.available name
  modprobe_loaded : ∀ name h, ini.available name →
    ini.loaded (ini.modprobe name h).2 = insert name (ini.loaded h)
  modprobe_controllers : ∀ name h, ini.controllers (ini.modprobe name h).2 = ini.controllers h
  connect_success : ∀ nqn listener s h,
    CanConnect (srv.config s) ini.hostNqn (ini.loaded h) (ini.controllers h) nqn listener →
      (ini.connect nqn listener (some s) h).1 = 0 ∧
        ini.controllers (ini.connect nqn listener (some s) h).2.2 =
          insert (nqn, listener) (ini.controllers h)
  connect_failure : ∀ nqn listener target h,
    (∀ s, target = some s →
      ¬ CanConnect (srv.config s) ini.hostNqn (ini.loaded h) (ini.controllers h) nqn listener) →
      (ini.connect nqn listener target h).1 ≠ 0 ∧
        ini.controllers (ini.connect nqn listener target h).2.2 = ini.controllers h
  connect_config : ∀ nqn listener target h,
    (ini.connect nqn listener target h).2.1.map srv.config = target.map srv.config
  list_status : ∀ target h, (ini.list target h).1 = 0
  list_config : ∀ target h, (ini.list target h).2.1.map srv.config = target.map srv.config
  list_controllers : ∀ target h, ini.controllers (ini.list target h).2.2 = ini.controllers h

/-- The target, the host and the lines said so far. -/
structure Fabric (σ τ : Type*) where
  target : Option σ
  host : τ
  said : List String

/-! ## The script -/

section Script

variable {σ τ : Type*} (ini : Initiator σ τ)

def echo (text : String) : Cmd (Fabric σ τ) :=
  fun f => (0, { f with said := f.said ++ [text] })

/-- `sudo modprobe name`. -/
def modprobe (name : String) : Cmd (Fabric σ τ) :=
  fun f => ((ini.modprobe name f.host).1, { f with host := (ini.modprobe name f.host).2 })

/-- `sudo nvme connect -t tcp -n nqn -a addr -s port`. -/
def connect (nqn : String) (listener : Listener) : Cmd (Fabric σ τ) :=
  fun f =>
    ((ini.connect nqn listener f.target f.host).1,
      { f with
        target := (ini.connect nqn listener f.target f.host).2.1
        host := (ini.connect nqn listener f.target f.host).2.2 })

/-- `sudo nvme list`. -/
def list : Cmd (Fabric σ τ) :=
  fun f =>
    ((ini.list f.target f.host).1,
      { f with
        target := (ini.list f.target f.host).2.1
        host := (ini.list f.target f.host).2.2 })

def nqn : String :=
  "nqn.2016-06.io.spdk:cnode1"

/-- `-t tcp -a "$ADDR" -s "$PORT"`. -/
def address : Listener :=
  { trtype := .tcp, traddr := "127.0.0.1", trsvcid := "4420" }

/-- The whole script. -/
def connectHostCode : Code (Fabric σ τ) :=
  block [
    run (echo "Loading kernel modules..."),
    run (modprobe ini "nvme"),
    run (modprobe ini "nvme-tcp"),
    run (echo "Connecting to NVMe Target at 127.0.0.1:4420..."),
    run (connect ini nqn address),
    run (echo "Connected. Checking devices..."),
    run (list ini)]

/-- The script, run alone. -/
def connectHost : Script (Fabric σ τ) :=
  (connectHostCode ini).eval

end Script

/-! ## What it does -/

/-- The modules that the script loads are there. -/
structure Initiator.Equipped {σ τ : Type*} (ini : Initiator σ τ) : Prop where
  nvme : ini.available "nvme"
  nvmeTcp : ini.available "nvme-tcp"

/-- The subsystem lets the host in, at the address that the script connects to. -/
def Offers (t : Target) (hostNqn : String) : Prop :=
  ∃ sub ∈ t.subsystems.lookup nqn, sub.Admits hostNqn ∧ address ∈ sub.listeners

section Spec

variable {σ τ : Type*} {ini : Initiator σ τ} {srv : Server σ} {c : Option Target}
  {C : Finset (String × Listener)}

/-- The target's configuration and the host's controllers. -/
structure Stands (ini : Initiator σ τ) (srv : Server σ) (c : Option Target)
    (C : Finset (String × Listener)) (f : Fabric σ τ) : Prop where
  config : f.target.map srv.config = c
  controllers : ini.controllers f.host = C

/-- The connection can be made, which needs a target that offers it, and is new. -/
def Open (ini : Initiator σ τ) (c : Option Target) (C : Finset (String × Listener)) : Prop :=
  (∃ t, c = some t ∧ Offers t ini.hostNqn) ∧ (nqn, address) ∉ C

/-- The shell exits without a connection. -/
def Refused (ini : Initiator σ τ) (srv : Server σ) (c : Option Target)
    (C : Finset (String × Listener)) (f : Fabric σ τ) : Prop :=
  ¬ (ini.Equipped ∧ Open ini c C) ∧ Stands ini srv c C f

theorem echo_spec {P X : Fabric σ τ → Prop} {text : String}
    (hP : ∀ f, P f → P { f with said := f.said ++ [text] }) :
    Code.Spec P (run (echo text)) P X := by
  refine Code.Spec.run fun f hf => ?_
  simpa [echo] using hP f hf

theorem modprobe_spec (hini : ini.Documented srv) {name : String}
    (hneeded : ini.Equipped → ini.available name) {P : Fabric σ τ → Prop}
    (hP : ∀ f, P f → Stands ini srv c C f) :
    Code.Spec P (run (modprobe ini name))
      (fun f => ini.available name ∧ Stands ini srv c C f ∧ name ∈ ini.loaded f.host)
      (Refused ini srv c C) := by
  refine Code.Spec.run fun f hf => ?_
  have hstands : Stands ini srv c C (modprobe ini name f).2 :=
    ⟨(hP f hf).config, (hini.modprobe_controllers name f.host).trans (hP f hf).controllers⟩
  constructor
  · intro hzero
    have havailable := (hini.modprobe_status name f.host).1 hzero
    have hloaded := hini.modprobe_loaded name f.host havailable
    exact ⟨havailable, hstands, by simp [modprobe, hloaded]⟩
  · intro hne
    exact ⟨fun hall => hne ((hini.modprobe_status name f.host).2 (hneeded hall.1)), hstands⟩

theorem connect_spec (hini : ini.Documented srv) :
    Cmd.Spec (fun f => Stands ini srv c C f ∧ "nvme-tcp" ∈ ini.loaded f.host)
      (connect ini nqn address)
      (fun f => Open ini c C ∧ Stands ini srv c (insert (nqn, address) C) f)
      (fun f => ¬ Open ini c C ∧ Stands ini srv c C f) := by
  rintro f ⟨hf, hloaded⟩
  have hconfig : (connect ini nqn address f).2.target.map srv.config = c :=
    (hini.connect_config nqn address f.target f.host).trans hf.config
  by_cases hopen : Open ini c C
  · -- `nvme-tcp` is there: the script has loaded it before
    obtain ⟨⟨t, rfl, hoffers⟩, hnew⟩ := hopen
    obtain ⟨s, hs, rfl⟩ := Option.map_eq_some_iff.1 hf.config
    have hcan : CanConnect (srv.config s) ini.hostNqn (ini.loaded f.host) (ini.controllers f.host)
          nqn address :=
      ⟨hoffers, fun _ => hloaded, by rwa [hf.controllers]⟩
    obtain ⟨hzero, hcontrollers⟩ := hini.connect_success nqn address s f.host hcan
    rw [← hs] at hzero hcontrollers
    refine ⟨fun _ => ⟨⟨⟨_, rfl, hoffers⟩, hnew⟩, hconfig, ?_⟩, fun hne => absurd hzero hne⟩
    rw [← hf.controllers]
    exact hcontrollers
  · -- The script sees to the module, so only the offer or the old controller is in the way.
    have hcannot : ∀ s, f.target = some s →
        ¬ CanConnect (srv.config s) ini.hostNqn (ini.loaded f.host) (ini.controllers f.host)
          nqn address := by
      intro s hs hcan
      refine hopen ⟨⟨srv.config s, ?_, hcan.offered⟩, by rw [← hf.controllers]; exact hcan.new⟩
      rw [← hf.config, hs]
      rfl
    obtain ⟨hne, hcontrollers⟩ := hini.connect_failure nqn address f.target f.host hcannot
    exact ⟨fun hzero => absurd hzero hne,
      fun _ => ⟨hopen, hconfig, hcontrollers.trans hf.controllers⟩⟩

theorem list_spec (hini : ini.Documented srv) {X : Fabric σ τ → Prop} :
    Code.Spec (Stands ini srv c C) (run (list ini)) (Stands ini srv c C) X := by
  refine Code.Spec.run fun f hf => ⟨fun _ => ?_, fun hne => ?_⟩
  · exact ⟨(hini.list_config f.target f.host).trans hf.config,
      (hini.list_controllers f.target f.host).trans hf.controllers⟩
  · exact absurd (hini.list_status f.target f.host) hne

/-- The script gets to its end exactly when the modules are there and the connection is open; then the
host has the one controller more, and otherwise nothing has changed. -/
theorem connectHost_spec (hini : ini.Documented srv) :
    Code.Spec (Stands ini srv c C) (connectHostCode ini)
      (fun f => (ini.Equipped ∧ Open ini c C) ∧ Stands ini srv c (insert (nqn, address) C) f)
      (Refused ini srv c C) := by
  have hsay : ∀ C' text, Code.Spec (Stands ini srv c C') (run (echo text)) (Stands ini srv c C')
      (Refused ini srv c C) := fun C' text => echo_spec fun _ hf => ⟨hf.config, hf.controllers⟩
  refine .cons (hsay C _) (.cons (modprobe_spec hini Initiator.Equipped.nvme fun _ hf => hf)
    (.of_pure fun hnvme => ?_))
  refine .cons (modprobe_spec hini Initiator.Equipped.nvmeTcp fun _ hf => hf.1)
    (.of_pure fun htcp => ?_)
  have hequipped : ini.Equipped := ⟨hnvme, htcp⟩
  have hconnect := (connect_spec (c := c) (C := C) hini).mono (fun _ hf => hf) (fun _ hf => hf)
    (fun f hf => (⟨fun hall => hf.1 hall.2, hf.2⟩ : Refused ini srv c C f))
  refine .cons (echo_spec fun _ hf => ⟨⟨hf.1.config, hf.1.controllers⟩, hf.2⟩)
    (.cons (.run hconnect) (.of_pure fun hopen => ?_))
  refine .cons (hsay _ _) (.cons (list_spec hini) fun f hf => ?_)
  exact ⟨⟨hequipped, hopen⟩, hf⟩

end Spec

/-! ## Results -/

section Results

variable {σ τ : Type*} {ini : Initiator σ τ} {srv : Server σ}

/-- The two ways the script can go. -/
theorem connectHost_cases (hini : ini.Documented srv) (f : Fabric σ τ) :
    (∃ f', connectHost ini f = .finished f' ∧
        (ini.Equipped ∧ Open ini (f.target.map srv.config) (ini.controllers f.host)) ∧
        Stands ini srv (f.target.map srv.config) (insert (nqn, address) (ini.controllers f.host)) f') ∨
      ∃ status f', connectHost ini f = .exited status f' ∧
        Refused ini srv (f.target.map srv.config) (ini.controllers f.host) f' := by
  have hspec : (connectHost ini f).In _ _ := connectHost_spec hini f ⟨rfl, rfl⟩
  cases hout : connectHost ini f with
  | finished f' =>
      rw [hout] at hspec
      exact .inl ⟨f', rfl, hspec⟩
  | exited status f' =>
      rw [hout] at hspec
      exact .inr ⟨status, f', rfl, hspec⟩

/-- Where the modules are there and the host has the controller, it is `nvme connect` that ends the
script. -/
theorem endedBy_connect (hini : ini.Documented srv) (hequipped : ini.Equipped) {f : Fabric σ τ}
    (hold : (nqn, address) ∈ ini.controllers f.host) :
    ∃ f', (connectHostCode ini).endedBy f = some (connect ini nqn address, f') ∧
      ini.controllers (connect ini nqn address f').2.host = ini.controllers f.host := by
  have hmodule : ∀ {name : String} (g : Fabric σ τ), ini.available name →
      ini.controllers g.host = ini.controllers f.host →
      (modprobe ini name g).1 = 0 ∧
        ini.controllers (modprobe ini name g).2.host = ini.controllers f.host := by
    intro name g havailable hg
    exact ⟨(hini.modprobe_status name g.host).2 havailable,
      (hini.modprobe_controllers name g.host).trans hg⟩
  have hconnect : ∀ g : Fabric σ τ, ini.controllers g.host = ini.controllers f.host →
      (connect ini nqn address g).1 ≠ 0 ∧
        ini.controllers (connect ini nqn address g).2.host = ini.controllers f.host := by
    intro g hg
    have hcannot : ∀ s, g.target = some s → ¬ CanConnect (srv.config s) ini.hostNqn
        (ini.loaded g.host) (ini.controllers g.host) nqn address := by
      intro s _ hcan
      refine hcan.new ?_
      rw [hg]
      exact hold
    obtain ⟨hne, hcontrollers⟩ := hini.connect_failure nqn address g.target g.host hcannot
    exact ⟨hne, hcontrollers.trans hg⟩
  -- up to there every command succeeds
  have hnvme := hmodule (echo "Loading kernel modules..." f).2 hequipped.nvme rfl
  have htcp := hmodule _ hequipped.nvmeTcp hnvme.2
  have hsaid : ∀ text (g : Fabric σ τ),
      ini.controllers (echo text g).2.host = ini.controllers g.host := fun _ _ => rfl
  have hfails := hconnect _ ((hsaid "Connecting to NVMe Target at 127.0.0.1:4420..." _).trans htcp.2)
  refine ⟨_, ?_, hfails.2⟩
  rw [connectHostCode, endedBy_block_of_zero rfl (goes_block _ _),
    endedBy_block_of_zero hnvme.1 (goes_block _ _), endedBy_block_of_zero htcp.1 (goes_block _ _),
    endedBy_block_of_zero rfl (goes_block _ _), endedBy_block_of_ne hfails.1]

/-- From any state of the target and of the host the script gets to its end exactly when the modules
are there and the connection is open.  A second run does not: it is `nvme connect` that ends it, and
the host's controllers stay as they are. -/
theorem connects_once (hini : ini.Documented srv) (f : Fabric σ τ) :
    ((∃ f', connectHost ini f = .finished f') ↔
        ini.Equipped ∧ Open ini (f.target.map srv.config) (ini.controllers f.host)) ∧
      ∀ f', connectHost ini f = .finished f' →
        ini.controllers f'.host = insert (nqn, address) (ini.controllers f.host) ∧
          ∃ f₁ status, (connectHostCode ini).endedBy f' = some (connect ini nqn address, f₁) ∧
            connectHost ini f' = .exited status (connect ini nqn address f₁).2 ∧
            ini.controllers (connect ini nqn address f₁).2.host = ini.controllers f'.host := by
  rcases connectHost_cases hini f with ⟨f', hout, hopen, hstands⟩ | ⟨status, f', hout, hrefused⟩
  · refine ⟨iff_of_true ⟨f', hout⟩ hopen, fun f₁ hf₁ => ?_⟩
    cases hout.symm.trans hf₁
    -- The host has the controller now, and would not get it a second time.
    have hold : (nqn, address) ∈ ini.controllers f'.host := by
      rw [hstands.controllers]
      exact Finset.mem_insert_self _ _
    obtain ⟨f₁, hended, hcontrollers⟩ := endedBy_connect hini hopen.1 hold
    obtain ⟨status, hexited⟩ := eval_of_endedBy hended
    exact ⟨hstands.controllers, f₁, status, hended, hexited, hcontrollers⟩
  · refine ⟨iff_of_false ?_ hrefused.1, fun f₁ hf₁ => ?_⟩
    · rintro ⟨f₁, hf₁⟩
      cases hout.symm.trans hf₁
    · cases hout.symm.trans hf₁

end Results

/-! ## A plain host -/

instance (t : Target) (hostNqn : String) (loaded : Finset String)
    (controllers : Finset (String × Listener)) (nqn : String) (listener : Listener) :
    Decidable (CanConnect t hostNqn loaded controllers nqn listener) :=
  decidable_of_iff
    ((∃ sub ∈ t.subsystems.lookup nqn, sub.Admits hostNqn ∧ listener ∈ sub.listeners) ∧
      (listener.trtype = .tcp → "nvme-tcp" ∈ loaded) ∧ (nqn, listener) ∉ controllers)
    ⟨fun h => ⟨h.1, h.2.1, h.2.2⟩, fun h => ⟨h.offered, h.loaded, h.new⟩⟩

def plainHostNqn : String :=
  "nqn.2014-08.org.nvmexpress:host"

/-- A host with every module, whose state is its modules and its controllers. -/
def plainInitiator : Initiator Target (Finset String × Finset (String × Listener)) where
  hostNqn := plainHostNqn
  available := fun _ => True
  loaded := Prod.fst
  controllers := Prod.snd
  modprobe := fun name h => (0, insert name h.1, h.2)
  connect := fun nqn listener target h =>
    match target with
    | none => (1, none, h)
    | some t =>
        if CanConnect t plainHostNqn h.1 h.2 nqn listener then
          (0, some t, h.1, insert (nqn, listener) h.2)
        else
          (1, some t, h)
  list := fun target h => (0, target, h)

theorem plainInitiator_documented : plainInitiator.Documented plainServer where
  modprobe_status name h := iff_of_true rfl trivial
  modprobe_loaded name h _ := rfl
  modprobe_controllers name h := rfl
  connect_success nqn listener t h hcan := by
    have hcan' : CanConnect t plainHostNqn h.1 h.2 nqn listener := hcan
    simp [plainInitiator, hcan']
  connect_failure nqn listener target h hcannot := by
    cases target with
    | none => simp [plainInitiator]
    | some t =>
        have hcannot' : ¬ CanConnect t plainHostNqn h.1 h.2 nqn listener := hcannot t rfl
        simp [plainInitiator, hcannot']
  connect_config nqn listener target h := by
    cases target with
    | none => rfl
    | some t =>
        simp only [plainInitiator]
        split <;> rfl
  list_status target h := rfl
  list_config target h := rfl
  list_controllers target h := rfl

/-- A target that listens for one host. -/
def listening : Target where
  bdevs := ∅
  subsystems := Finmap.singleton nqn
    { allowAnyHost := false
      hosts := {plainHostNqn}
      serialNumber := "SPDK00000000000001"
      modelNumber := "SPDK_Controller1"
      namespaces := ∅
      listeners := {address} }
  transports := ∅

theorem connects_once_listening :
    ∃ f, connectHost plainInitiator { target := some listening, host := (∅, ∅), said := [] } =
      .finished f :=
  (connects_once plainInitiator_documented _).1.2
    ⟨⟨trivial, trivial⟩,
      ⟨listening, rfl, _, Finmap.lookup_singleton_eq, Or.inr (Finset.mem_singleton_self _),
        Finset.mem_singleton_self _⟩,
      Finset.notMem_empty _⟩

end Nvme
end HelloEbpf
