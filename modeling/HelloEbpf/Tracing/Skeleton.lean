import HelloEbpf.Alloc
import HelloEbpf.Tracing.Handlers

/-!
# Skeleton — `minimal.skel.h`

The generated functions build a `struct bpf_object_skeleton` that tells libbpf what is in the object
and where in the `struct minimal_bpf` it has to put its pointers.  Every `calloc` may fail, and what
has been allocated so far is then to be given back: by `create_skeleton` where it is its own, by
`destroy` where the struct knows of the skeleton.  `open_opts_gives` and `open_and_load_gives` say when
that goes well: nothing is given back twice, and nothing is left where the caller gets `NULL`.  It does
not where one of the two lists cannot be allocated.

Both give a skeleton back by `bpf_object__destroy_skeleton`.  That function and
`bpf_object__detach_skeleton` are those of the libbpf in `.output/libbpf` (v1.6); they walk through the
lists by the numbers in the skeleton, whether the lists are there or not.  The rest of libbpf is left
open: `Libbpf.Documented` says what its functions do with the memory of a skeleton, and `plainLibbpf`
is one that does so.
-/

namespace HelloEbpf
namespace Tracing

open Alloc

/-! ## The data -/

/-- The fields of `struct minimal_bpf` that libbpf writes. -/
inductive Field where
  | obj
  | maps_bss
  | maps_rodata
  | progs_handle_tp
  | links_handle_tp
  | bss
  deriving DecidableEq

/-- The address of a field. -/
abbrev FieldPtr := Option (ℕ × Field)

/-- `&p->f` -/
def addressOf (p : Ptr) (f : Field) : FieldPtr :=
  p.map fun b => (b, f)

/-- `struct minimal_bpf` -/
structure MinimalBpf where
  skeleton : Ptr := none
  obj : Ptr := none
  maps_bss : Ptr := none
  maps_rodata : Ptr := none
  progs_handle_tp : Ptr := none
  links_handle_tp : Ptr := none
  bss : Ptr := none
  deriving DecidableEq

def MinimalBpf.get (x : MinimalBpf) : Field → Ptr
  | .obj => x.obj
  | .maps_bss => x.maps_bss
  | .maps_rodata => x.maps_rodata
  | .progs_handle_tp => x.progs_handle_tp
  | .links_handle_tp => x.links_handle_tp
  | .bss => x.bss

def MinimalBpf.set (x : MinimalBpf) (p : Ptr) : Field → MinimalBpf
  | .obj => { x with obj := p }
  | .maps_bss => { x with maps_bss := p }
  | .maps_rodata => { x with maps_rodata := p }
  | .progs_handle_tp => { x with progs_handle_tp := p }
  | .links_handle_tp => { x with links_handle_tp := p }
  | .bss => { x with bss := p }

/-- `struct bpf_map_skeleton`, which has 32 bytes. -/
structure MapSkeleton where
  name : Option String := none
  map : FieldPtr := none
  mmaped : FieldPtr := none
  link : FieldPtr := none
  deriving DecidableEq

/-- `struct bpf_prog_skeleton` -/
structure ProgSkeleton where
  name : Option String := none
  prog : FieldPtr := none
  link : FieldPtr := none
  deriving DecidableEq

/-- `struct bpf_object_skeleton`; of the ELF file in `data` only what `Minimal.object` has of it. -/
structure ObjectSkeleton where
  name : Option String := none
  data : Option (Ebpf.Object Minimal.Section) := none
  obj : FieldPtr := none
  map_cnt : ℕ := 0
  map_skel_sz : ℕ := 0
  maps : Ptr := none
  prog_cnt : ℕ := 0
  progs : Ptr := none

/-- What a block holds.  A `struct bpf_object` and a `struct bpf_link` are libbpf's; here the former
knows where its `.bss` is. -/
inductive Cell where
  | minimal_bpf (x : MinimalBpf)
  | skeleton (x : ObjectSkeleton)
  | maps (x : List MapSkeleton)
  | progs (x : List ProgSkeleton)
  | object (bss : Ptr)
  | bss (my_pid : BitVec 32)
  | link

namespace Cell

def minimalBpf : Kind Cell MinimalBpf where
  make := .minimal_bpf
  get c := match c with
    | .minimal_bpf x => some x
    | _ => none
  get_make _ := rfl

def objectSkeleton : Kind Cell ObjectSkeleton where
  make := .skeleton
  get c := match c with
    | .skeleton x => some x
    | _ => none
  get_make _ := rfl

def mapSkeletons : Kind Cell (List MapSkeleton) where
  make := .maps
  get c := match c with
    | .maps x => some x
    | _ => none
  get_make _ := rfl

def progSkeletons : Kind Cell (List ProgSkeleton) where
  make := .progs
  get c := match c with
    | .progs x => some x
    | _ => none
  get_make _ := rfl

def bpfObject : Kind Cell Ptr where
  make := .object
  get c := match c with
    | .object x => some x
    | _ => none
  get_make _ := rfl

def minimalBss : Kind Cell (BitVec 32) where
  make := .bss
  get c := match c with
    | .bss x => some x
    | _ => none
  get_make _ := rfl

end Cell

open Cell

/-! ## libbpf -/

/-- `*p` -/
def readField : FieldPtr → Prog Cell Ptr
  | none => fun _ => none
  | some (b, f) => do
      let x ← minimalBpf.deref (some b)
      return x.get f

/-- `*p = q` -/
def writeField (p : FieldPtr) (q : Ptr) : Prog Cell Unit :=
  match p with
  | none => fun _ => none
  | some (b, f) => minimalBpf.assign (some b) fun x => x.set q f

/-- `link_destroy` is `bpf_link__destroy`, and `close` is `bpf_object__close`. -/
structure Libbpf where
  open_skeleton : Ptr → Prog Cell (BitVec 32)
  load_skeleton : Ptr → Prog Cell (BitVec 32)
  attach_skeleton : Ptr → Prog Cell (BitVec 32)
  link_destroy : Ptr → Prog Cell Unit
  close : Ptr → Prog Cell Unit

namespace Libbpf

variable (lib : Libbpf)

def detach_link (link : FieldPtr) : Prog Cell Unit := do
  let p ← readField link
  lib.link_destroy p
  writeField link none

/-- The loop over the programs in `detach_skeleton` -/
def detach_progs (x : ObjectSkeleton) : Prog Cell Unit :=
  (List.range x.prog_cnt).forM fun i => do
    let progs ← progSkeletons.deref x.progs
    let prog ← StateT.lift progs[i]?
    lib.detach_link prog.link

/-- The loop over the maps in `detach_skeleton` -/
def detach_maps (x : ObjectSkeleton) : Prog Cell Unit :=
  (List.range x.map_cnt).forM fun i => do
    let maps ← mapSkeletons.deref x.maps
    let map ← StateT.lift maps[i]?
    if map.link = none then
      return
    else
      lib.detach_link map.link

/-- `bpf_object__detach_skeleton` -/
def detach_skeleton (s : Ptr) : Prog Cell Unit := do
  let x ← objectSkeleton.deref s
  lib.detach_progs x
  if x.map_skel_sz < 32 then
    return
  else
    lib.detach_maps x

def close_object (x : ObjectSkeleton) : Prog Cell Unit := do
  if x.obj = none then
    return
  else
    let p ← readField x.obj
    lib.close p

/-- `bpf_object__destroy_skeleton` -/
def destroy_skeleton (s : Ptr) : Prog Cell Unit := do
  if s = none then
    return
  else
    lib.detach_skeleton s
    let x ← objectSkeleton.deref s
    lib.close_object x
    free x.maps
    free x.progs
    free s

end Libbpf

/-! ## The functions -/

/-- Which of the four calls of `calloc` succeed. -/
structure Callocs where
  obj : Bool
  skeleton : Bool
  maps : Bool
  progs : Bool

/-- The lists are allocated, where it comes to that. -/
def Callocs.Lists (c : Callocs) : Prop :=
  c.obj = true → c.skeleton = true → c.maps = true ∧ c.progs = true

def ENOMEM : BitVec 32 := 12

namespace MinimalBpf

variable (lib : Libbpf) (c : Callocs)

/-- The label `err` of `create_skeleton` -/
def err (s : Ptr) (err : BitVec 32) : Prog Cell (BitVec 32) := do
  lib.destroy_skeleton s
  return err

def mapList (obj : Ptr) : List MapSkeleton :=
  [{ name := some "minimal_.bss", map := addressOf obj .maps_bss, mmaped := addressOf obj .bss },
   { name := some "minimal_.rodata", map := addressOf obj .maps_rodata }]

def progList (obj : Ptr) : List ProgSkeleton :=
  [{ name := some "handle_tp", prog := addressOf obj .progs_handle_tp,
     link := addressOf obj .links_handle_tp }]

/-- `create_skeleton` from `programs` on -/
def create_progs (obj s : Ptr) : Prog Cell (BitVec 32) := do
  objectSkeleton.assign s fun x => { x with prog_cnt := 1 }
  let progs ← calloc c.progs (.progs [{}])
  objectSkeleton.assign s fun x => { x with progs := progs }
  if progs = none then
    err lib s (-ENOMEM)
  else
    progSkeletons.assign progs fun _ => progList obj
    objectSkeleton.assign s fun x => { x with data := some Minimal.object }
    -- Only now, where nothing can fail any more.
    minimalBpf.assign obj fun x => { x with skeleton := s }
    return 0

/-- `create_skeleton` from `maps` on -/
def create_maps (obj s : Ptr) : Prog Cell (BitVec 32) := do
  objectSkeleton.assign s fun x => { x with map_cnt := 2, map_skel_sz := 32 }
  let maps ← calloc c.maps (.maps (List.replicate 2 {}))
  objectSkeleton.assign s fun x => { x with maps := maps }
  if maps = none then
    err lib s (-ENOMEM)
  else
    mapSkeletons.assign maps fun _ => mapList obj
    create_progs lib c obj s

/-- `minimal_bpf__create_skeleton` -/
def create_skeleton (obj : Ptr) : Prog Cell (BitVec 32) := do
  let s ← calloc c.skeleton (.skeleton {})
  if s = none then
    err lib s (-ENOMEM)
  else
    objectSkeleton.assign s fun x =>
      { x with name := some "minimal_bpf", obj := addressOf obj .obj }
    create_maps lib c obj s

/-- `minimal_bpf__destroy` -/
def destroy (obj : Ptr) : Prog Cell Unit := do
  if obj = none then
    return
  else
    let x ← minimalBpf.deref obj
    if x.skeleton ≠ none then
      lib.destroy_skeleton x.skeleton
      free obj
    else
      free obj

/-- The label `err_out` of `open_opts`: `errno` is set, and `NULL` returned. -/
def err_out (obj : Ptr) (err : BitVec 32) : Prog Cell (Except (BitVec 32) Ptr) := do
  destroy lib obj
  return .error (-err)

/-- `minimal_bpf__open_opts`, and `minimal_bpf__open`, which has no options to give. -/
def open_opts : Prog Cell (Except (BitVec 32) Ptr) := do
  let obj ← calloc c.obj (.minimal_bpf {})
  if obj = none then
    return .error ENOMEM
  else
    let err ← create_skeleton lib c obj
    if err ≠ 0 then
      err_out lib obj err
    else
      let x ← minimalBpf.deref obj
      let err ← lib.open_skeleton x.skeleton
      if err ≠ 0 then
        err_out lib obj err
      else
        return .ok obj

/-- `minimal_bpf__load` -/
def load (obj : Ptr) : Prog Cell (BitVec 32) := do
  let x ← minimalBpf.deref obj
  lib.load_skeleton x.skeleton

/-- `minimal_bpf__attach` -/
def attach (obj : Ptr) : Prog Cell (BitVec 32) := do
  let x ← minimalBpf.deref obj
  lib.attach_skeleton x.skeleton

/-- `minimal_bpf__open_and_load` -/
def open_and_load : Prog Cell (Except (BitVec 32) Ptr) := do
  match ← open_opts lib c with
  | .error errno => return .error errno
  | .ok obj =>
      let err ← load lib obj
      if err ≠ 0 then
        destroy lib obj
        return .error (-err)
      else
        return .ok obj

end MinimalBpf

/-! ## Skeletons -/

/-- A skeleton that has been built: where its blocks are, and those that libbpf has for its object. -/
structure Skel where
  obj : ℕ
  s : ℕ
  maps : ℕ
  progs : ℕ
  app : MinimalBpf
  bss : Ptr
  my_pid : BitVec 32
  bss_obj : app.obj = none → bss = none

namespace Skel

def desc (d : Skel) : ObjectSkeleton where
  name := some "minimal_bpf"
  data := some Minimal.object
  obj := addressOf (some d.obj) .obj
  map_cnt := 2
  map_skel_sz := 32
  maps := some d.maps
  prog_cnt := 1
  progs := some d.progs

/-- The blocks of `create_skeleton`. -/
def lists (d : Skel) : Multiset (ℕ × Cell) :=
  pointsTo (some d.s) (Cell.skeleton d.desc) +
    (pointsTo (some d.maps) (Cell.maps (MinimalBpf.mapList (some d.obj))) +
      pointsTo (some d.progs) (Cell.progs (MinimalBpf.progList (some d.obj))))

/-- The object and its `.bss`. -/
def object (d : Skel) : Multiset (ℕ × Cell) :=
  pointsTo d.app.obj (Cell.object d.bss) + pointsTo d.bss (Cell.bss d.my_pid)

def link (d : Skel) : Multiset (ℕ × Cell) :=
  pointsTo d.app.links_handle_tp Cell.link

def own (d : Skel) : Multiset (ℕ × Cell) :=
  pointsTo (some d.obj) (Cell.minimal_bpf d.app) + (d.lists + (d.object + d.link))

/-- The skeleton's own block first. -/
theorem own_eq (d : Skel) : d.own =
    pointsTo (some d.s) (Cell.skeleton d.desc) +
      (pointsTo (some d.obj) (Cell.minimal_bpf d.app) +
        (pointsTo (some d.maps) (Cell.maps (MinimalBpf.mapList (some d.obj))) +
          pointsTo (some d.progs) (Cell.progs (MinimalBpf.progList (some d.obj))) +
            (d.object + d.link))) := by
  rw [own, lists]
  abel

/-- The same skeleton, with other pointers of libbpf. -/
def update (d : Skel) (x : MinimalBpf) (bss : Ptr) (my_pid : BitVec 32)
    (h : x.obj = none → bss = none) : Skel :=
  { d with app := x, bss := bss, my_pid := my_pid, bss_obj := h }

/-- What `create_skeleton` has built is left alone. -/
structure Same (d d' : Skel) : Prop where
  obj : d'.obj = d.obj
  s : d'.s = d.s
  skeleton : d'.app.skeleton = d.app.skeleton

/-- libbpf has an object with the variable `my_pid`, and `bss` points to it. -/
def IsOpen (d : Skel) : Prop :=
  d.app.skeleton = some d.s ∧ d.bss ≠ none ∧ d.app.bss = d.bss

end Skel

namespace Libbpf

/-- A function that may fail and leaves an open skeleton open, with `my_pid` as it is. -/
def Keeps (f : Ptr → Prog Cell (BitVec 32)) : Prop :=
  ∀ {base h : Heap Cell} (d : Skel), d.IsOpen → Own base d.own h →
    Runs (f (some d.s)) h fun _ h' =>
      ∃ d' : Skel, d.Same d' ∧ d'.IsOpen ∧ d'.my_pid = d.my_pid ∧ Own base d'.own h'

structure Documented (lib : Libbpf) : Prop where
  /-- Where it fails, it may have come to an object or not. -/
  open_skeleton : ∀ {base h : Heap Cell} (d : Skel), d.app.obj = none →
    d.app.links_handle_tp = none → Own base d.own h →
      Runs (lib.open_skeleton (some d.s)) h fun err h' =>
        ∃ d' : Skel, d.Same d' ∧ Own base d'.own h' ∧
          (err = 0 → d'.bss ≠ none ∧ d'.app.bss = d'.bss)
  load_skeleton : Keeps lib.load_skeleton
  attach_skeleton : Keeps lib.attach_skeleton
  /-- `NULL` is no link. -/
  link_destroy : ∀ {base h : Heap Cell} {own : Multiset (ℕ × Cell)} (p : Ptr),
    Own base (pointsTo p Cell.link + own) h →
      Runs (lib.link_destroy p) h fun _ h' => Own base own h'
  /-- `NULL` is no object. -/
  close : ∀ {base h : Heap Cell} {own : Multiset (ℕ × Cell)} (p bss : Ptr) (pid : BitVec 32),
    (p = none → bss = none) →
      Own base (pointsTo p (Cell.object bss) + (pointsTo bss (Cell.bss pid) + own)) h →
        Runs (lib.close p) h fun _ h' => Own base own h'

end Libbpf

/-! ## Giving a skeleton back -/

section Destroy

variable {lib : Libbpf} {base h : Heap Cell} {own : Multiset (ℕ × Cell)} {b s : ℕ}
  {x : MinimalBpf} {k : ObjectSkeleton}

theorem readField_runs (f : Field) (ho : Own base (pointsTo (some b) (Cell.minimal_bpf x) + own) h)
    {Q : Ptr → Heap Cell → Prop} (hQ : Q (x.get f) h) :
    Runs (readField (addressOf (some b) f)) h Q :=
  .bind (.deref (k := minimalBpf) ho (.pure hQ))

theorem writeField_runs (f : Field) (q : Ptr)
    (ho : Own base (pointsTo (some b) (Cell.minimal_bpf x) + own) h) {Q : Unit → Heap Cell → Prop}
    (hQ : ∀ h', Own base (pointsTo (some b) (Cell.minimal_bpf (x.set q f)) + own) h' → Q () h') :
    Runs (writeField (addressOf (some b) f) q) h Q :=
  .assign (k := minimalBpf) _ ho fun _ h' hy ho => hQ h' (hy ▸ ho)

namespace Libbpf

/-- The link is destroyed, and the field that led to it is `NULL`. -/
theorem detach_link_runs (hlib : lib.Documented) (f : Field)
    (ho : Own base (pointsTo (some b) (Cell.minimal_bpf x) +
      (pointsTo (x.get f) Cell.link + own)) h) :
    Runs (lib.detach_link (addressOf (some b) f)) h fun _ h' =>
      Own base (pointsTo (some b) (Cell.minimal_bpf (x.set none f)) + own) h' := by
  refine .bind (readField_runs f ho ?_)
  refine .bind ((hlib.link_destroy _ (ho.of_eq (add_left_comm _ _ _))).mono fun _ h ho => ?_)
  exact writeField_runs f none ho fun h ho => ho

theorem detach_progs_runs (hlib : lib.Documented) (d : Skel) (ho : Own base d.own h) :
    Runs (lib.detach_progs d.desc) h fun _ h' =>
      Own base (pointsTo (some d.obj) (Cell.minimal_bpf (d.app.set none .links_handle_tp)) +
        (d.lists + d.object)) h' := by
  have hprogs : Own base (pointsTo (some d.progs)
        (Cell.progs (MinimalBpf.progList (some d.obj))) +
      (pointsTo (some d.s) (Cell.skeleton d.desc) +
        (pointsTo (some d.maps) (Cell.maps (MinimalBpf.mapList (some d.obj))) +
          (pointsTo (some d.obj) (Cell.minimal_bpf d.app) + (d.object + d.link))))) h :=
    ho.of_eq (by rw [Skel.own, Skel.lists]; abel)
  have hlink : Own base (pointsTo (some d.obj) (Cell.minimal_bpf d.app) +
      (pointsTo d.app.links_handle_tp Cell.link + (d.lists + d.object))) h :=
    ho.of_eq (by rw [Skel.own, Skel.link]; abel)
  -- one program, and one round
  have hround : Runs (do
        let progs ← progSkeletons.deref (some d.progs)
        let prog ← StateT.lift progs[0]?
        lib.detach_link prog.link) h fun _ h' =>
      Own base (pointsTo (some d.obj) (Cell.minimal_bpf (d.app.set none .links_handle_tp)) +
        (d.lists + d.object)) h' :=
    .bind (.deref (k := progSkeletons) hprogs
      (.bind (.lift rfl (detach_link_runs hlib .links_handle_tp hlink))))
  exact .bind (hround.mono fun _ h ho => .pure ho)

/-- None of the maps has a link. -/
theorem detach_maps_runs (d : Skel)
    (ho : Own base (pointsTo (some d.maps) (Cell.maps (MinimalBpf.mapList (some d.obj))) + own) h) :
    Runs (lib.detach_maps d.desc) h fun _ h' =>
      Own base (pointsTo (some d.maps) (Cell.maps (MinimalBpf.mapList (some d.obj))) + own) h' := by
  refine .forM ho fun i hi h ho => .bind (.deref (k := mapSkeletons) ho ?_)
  have hi : i < 2 := List.mem_range.mp hi
  obtain ⟨m, hm, hlink⟩ : ∃ m, (MinimalBpf.mapList (some d.obj))[i]? = some m ∧ m.link = none := by
    match i, hi with
    | 0, _ => exact ⟨_, rfl, rfl⟩
    | 1, _ => exact ⟨_, rfl, rfl⟩
  refine .bind (.lift hm ?_)
  rw [if_pos hlink]
  exact .pure ho

/-- The object, if there is one, is closed, and the skeleton is given back. -/
theorem destroy_skeleton_runs (hlib : lib.Documented) (d : Skel) (ho : Own base d.own h) :
    Runs (lib.destroy_skeleton (some d.s)) h fun _ h' =>
      Own base (pointsTo (some d.obj) (Cell.minimal_bpf (d.app.set none .links_handle_tp))) h' := by
  have hs : ∀ {h} {y : MinimalBpf} {own : Multiset (ℕ × Cell)},
      Own base (pointsTo (some d.obj) (Cell.minimal_bpf y) + (d.lists + own)) h →
        Own base (pointsTo (some d.s) (Cell.skeleton d.desc) +
          (pointsTo (some d.maps) (Cell.maps (MinimalBpf.mapList (some d.obj))) +
            (pointsTo (some d.progs) (Cell.progs (MinimalBpf.progList (some d.obj))) +
              (pointsTo (some d.obj) (Cell.minimal_bpf y) + own)))) h := fun ho =>
    ho.of_eq (by rw [Skel.lists]; abel)
  rw [destroy_skeleton, if_neg (by simp)]
  refine .bind (.bind (.deref (k := objectSkeleton) (hs ho) ?_))
  refine .bind ((detach_progs_runs hlib d ho).mono fun _ h ho => ?_)
  rw [if_neg (by simp [Skel.desc])]
  refine (detach_maps_runs d ((hs ho).of_eq (add_left_comm _ _ _))).mono fun _ h ho => ?_
  have ho : Own base (pointsTo (some d.s) (Cell.skeleton d.desc) +
      (pointsTo (some d.maps) (Cell.maps (MinimalBpf.mapList (some d.obj))) +
        (pointsTo (some d.progs) (Cell.progs (MinimalBpf.progList (some d.obj))) +
          (pointsTo (some d.obj) (Cell.minimal_bpf (d.app.set none .links_handle_tp)) +
            d.object)))) h := ho.of_eq (by abel)
  refine .bind (.deref (k := objectSkeleton) ho ?_)
  have hobj : Own base (pointsTo (some d.obj) (Cell.minimal_bpf (d.app.set none .links_handle_tp)) +
      (d.object + d.lists)) h := ho.of_eq (by rw [Skel.lists]; abel)
  have hclose : Own base (pointsTo d.app.obj (Cell.object d.bss) +
      (pointsTo d.bss (Cell.bss d.my_pid) + (d.lists +
        pointsTo (some d.obj) (Cell.minimal_bpf (d.app.set none .links_handle_tp))))) h :=
    hobj.of_eq (by rw [Skel.object]; abel)
  refine .bind ?_
  rw [close_object, if_neg (by simp [Skel.desc, addressOf])]
  refine .bind (readField_runs .obj hobj ?_)
  refine (hlib.close d.app.obj d.bss d.my_pid d.bss_obj hclose).mono fun _ h ho => ?_
  -- in the order in which they are freed
  have ho : Own base (pointsTo (some d.maps) (Cell.maps (MinimalBpf.mapList (some d.obj))) +
      (pointsTo (some d.progs) (Cell.progs (MinimalBpf.progList (some d.obj))) +
        (pointsTo (some d.s) (Cell.skeleton d.desc) +
          pointsTo (some d.obj) (Cell.minimal_bpf (d.app.set none .links_handle_tp))))) h :=
    ho.of_eq (by rw [Skel.lists]; abel)
  exact .bind (.free ho fun h ho => .bind (.free ho fun h ho => .free ho fun h ho => ho))

/-- A skeleton whose numbers speak of a list that is `NULL` cannot be given back. -/
theorem destroy_skeleton_faults (ho : Own base (pointsTo (some s) (Cell.skeleton k) + own) h)
    (hk : 0 < k.prog_cnt ∧ k.progs = none ∨
      k.prog_cnt = 0 ∧ 32 ≤ k.map_skel_sz ∧ 0 < k.map_cnt ∧ k.maps = none) :
    Faults (lib.destroy_skeleton (some s)) h := by
  have hprogs : 0 < k.prog_cnt → k.progs = none → Faults (lib.detach_progs k) h := by
    intro hcnt hnull
    obtain ⟨n, hn⟩ := Nat.exists_eq_succ_of_ne_zero hcnt.ne'
    rw [detach_progs, hn, List.range_succ_eq_map, hnull]
    refine Faults.forM_cons ?_ _
    exact (progSkeletons.deref_null h).bind _
  have hmaps : 0 < k.map_cnt → k.maps = none → Faults (lib.detach_maps k) h := by
    intro hcnt hnull
    obtain ⟨n, hn⟩ := Nat.exists_eq_succ_of_ne_zero hcnt.ne'
    rw [detach_maps, hn, List.range_succ_eq_map, hnull]
    refine Faults.forM_cons ?_ _
    exact (mapSkeletons.deref_null h).bind _
  rw [destroy_skeleton, if_neg (by simp)]
  refine Faults.bind (Runs.bind_faults (.deref (k := objectSkeleton) ho ?_)) _
  -- The programs come first; the maps are only come to where there are no programs.
  rcases hk with ⟨hcnt, hnull⟩ | ⟨hnone, hsz, hcnt, hnull⟩
  · exact (hprogs hcnt hnull).bind _
  · refine Runs.bind_faults ?_
    have hskip : lib.detach_progs k = pure () := by rw [detach_progs, hnone]; rfl
    rw [hskip]
    refine .pure ?_
    rw [if_neg (by omega)]
    exact hmaps hcnt hnull

end Libbpf

end Destroy

/-! ## What the functions do -/

namespace MinimalBpf

variable {lib : Libbpf} {c : Callocs} {base h : Heap Cell} {a : ℕ}

theorem destroy_of_skeleton_eq_none {x : MinimalBpf} (hx : x.skeleton = none)
    (ho : Own base (pointsTo (some a) (Cell.minimal_bpf x)) h) :
    Runs (destroy lib (some a)) h fun _ h' => Own base 0 h' := by
  have ho : Own base (pointsTo (some a) (Cell.minimal_bpf x) + 0) h := ho.of_eq (add_zero _).symm
  rw [destroy, if_neg (by simp)]
  refine .bind (.deref (k := minimalBpf) ho ?_)
  rw [if_neg (by simp [hx])]
  exact .free ho fun h' ho => ho

theorem destroy_of_own (hlib : lib.Documented) (d : Skel) (hd : d.app.skeleton = some d.s)
    (ho : Own base d.own h) : Runs (destroy lib (some d.obj)) h fun _ h' => Own base 0 h' := by
  rw [destroy, if_neg (by simp)]
  refine .bind (.deref (k := minimalBpf) ho ?_)
  rw [if_pos (by simp [hd]), hd]
  refine .bind ((Libbpf.destroy_skeleton_runs hlib d ho).mono fun _ h ho => ?_)
  exact .free (ho.of_eq (add_zero _).symm) fun h' ho => ho

/-- Either nothing is left of what has been allocated here, or the skeleton is there and tells
libbpf where to put its pointers. -/
def Creates (base : Heap Cell) (a : ℕ) (err : BitVec 32) (h : Heap Cell) : Prop :=
  (err ≠ 0 ∧ Own base (pointsTo (some a) (Cell.minimal_bpf {})) h) ∨
    (err = 0 ∧ ∃ d : Skel, d.obj = a ∧ d.app = { skeleton := some d.s } ∧ Own base d.own h)

variable {s : ℕ}

/-- `create_skeleton` so far: the numbers are set, and then the lists are allocated. -/
def soFar (obj : Ptr) (map_cnt map_skel_sz : ℕ) (maps : Ptr) (prog_cnt : ℕ) (progs : Ptr) :
    ObjectSkeleton where
  name := some "minimal_bpf"
  obj := addressOf obj .obj
  map_cnt := map_cnt
  map_skel_sz := map_skel_sz
  maps := maps
  prog_cnt := prog_cnt
  progs := progs

/-- Where the list of the programs is `NULL`, libbpf looks into it. -/
theorem create_progs_creates {maps : ℕ}
    (ho : Own base (pointsTo (some s) (Cell.skeleton (soFar (some a) 2 32 (some maps) 0 none)) +
      (pointsTo (some maps) (Cell.maps (mapList (some a))) +
        pointsTo (some a) (Cell.minimal_bpf {}))) h) :
    RunsIff (c.progs = true) (create_progs lib c (some a) (some s)) h (Creates base a) := by
  refine .bind (.assign (k := objectSkeleton) _ ho fun k₁ h hk₁ ho => ?_)
  refine .bind (.calloc _ _ ho fun progs h hprogs ho => ?_)
  refine .bind (.assign (k := objectSkeleton) _ (ho.of_eq (add_left_comm _ _ _))
    fun k₂ h hk₂ ho => ?_)
  have hk₂ : k₂ = soFar (some a) 2 32 (some maps) 1 progs := by rw [hk₂, hk₁]; rfl
  subst hk₂
  cases progs with
  | none =>
      -- `prog_cnt` says 1 already
      rw [if_pos rfl]
      refine .of_faults (by simp [← hprogs]) (.bind ?_ _)
      exact Libbpf.destroy_skeleton_faults ho (.inl ⟨Nat.one_pos, rfl⟩)
  | some progs =>
      rw [if_neg (by simp)]
      refine .of_runs (by simp [← hprogs]) ?_
      refine .bind (.assign (k := progSkeletons) _ (ho.of_eq (add_left_comm _ _ _))
        fun ps h hps ho => ?_)
      refine .bind (.assign (k := objectSkeleton) _ (ho.of_eq (add_left_comm _ _ _))
        fun k₃ h hk₃ ho => ?_)
      have ho : Own base (pointsTo (some a) (Cell.minimal_bpf {}) +
          (pointsTo (some s) (Cell.skeleton k₃) + (pointsTo (some maps) (Cell.maps
            (mapList (some a))) + pointsTo (some progs) (Cell.progs ps)))) h := ho.of_eq (by
              simp only [objectSkeleton, progSkeletons]
              abel)
      refine .bind (.assign (k := minimalBpf) _ ho fun x h hx ho => .pure (.inr ⟨rfl, ?_⟩))
      have hbss : x.obj = none := by rw [hx]
      refine ⟨⟨a, s, maps, progs, x, none, 0, fun _ => rfl⟩, rfl, hx, ho.of_eq ?_⟩
      rw [hps, hk₃, hx]
      simp [Skel.own, Skel.lists, Skel.object, Skel.link, minimalBpf]
      rfl

/-- Where the list of the maps is `NULL`, libbpf looks into it. -/
theorem create_maps_creates
    (ho : Own base (pointsTo (some s) (Cell.skeleton (soFar (some a) 0 0 none 0 none)) +
      pointsTo (some a) (Cell.minimal_bpf {})) h) :
    RunsIff (c.maps = true ∧ c.progs = true) (create_maps lib c (some a) (some s)) h
      (Creates base a) := by
  refine .bind (.assign (k := objectSkeleton) _ ho fun k₁ h hk₁ ho => ?_)
  refine .bind (.calloc _ _ ho fun maps h hmaps ho => ?_)
  refine .bind (.assign (k := objectSkeleton) _ (ho.of_eq (add_left_comm _ _ _))
    fun k₂ h hk₂ ho => ?_)
  have hk₂ : k₂ = soFar (some a) 2 32 maps 0 none := by rw [hk₂, hk₁]; rfl
  subst hk₂
  cases maps with
  | none =>
      -- `map_cnt` says 2 already, and `prog_cnt` still 0
      rw [if_pos rfl]
      refine .of_faults (by simp [← hmaps]) (.bind ?_ _)
      exact Libbpf.destroy_skeleton_faults ho (.inr ⟨rfl, le_rfl, Nat.two_pos, rfl⟩)
  | some maps =>
      rw [if_neg (by simp)]
      refine .bind (.assign (k := mapSkeletons) _ (ho.of_eq (add_left_comm _ _ _))
        fun ms h hms ho => ?_)
      subst hms
      exact (create_progs_creates (ho.of_eq (add_left_comm _ _ _))).congr (by simp [← hmaps])

theorem create_skeleton_creates
    (ho : Own base (pointsTo (some a) (Cell.minimal_bpf {})) h) :
    RunsIff (c.skeleton = true → c.maps = true ∧ c.progs = true)
      (create_skeleton lib c (some a)) h (Creates base a) := by
  refine .bind (.calloc _ _ ho fun s h hs ho => ?_)
  cases s with
  | none =>
      -- `bpf_object__destroy_skeleton(NULL)` does nothing
      rw [if_pos rfl]
      refine .of_runs (by simp [← hs]) (.bind (.pure (.pure (.inl ⟨by decide, ?_⟩))))
      simpa using ho
  | some s =>
      rw [if_neg (by simp)]
      refine .bind (.assign (k := objectSkeleton) _ ho fun k h hk ho => ?_)
      subst hk
      exact (create_maps_creates ho).congr (by simp [← hs])

/-- What the callers of `open_opts` and of `open_and_load` get: a pointer to an open skeleton, or
`NULL` and an `errno`, and then nothing is left in memory. -/
def Gives (base : Heap Cell) (r : Except (BitVec 32) Ptr) (h : Heap Cell) : Prop :=
  match r with
  | .error errno => errno ≠ 0 ∧ h.block = base.block
  | .ok p => ∃ d : Skel, p = some d.obj ∧ d.IsOpen ∧ Own base d.own h

/-- Where `destroy` gives everything back, `err_out` tells of the error and leaves nothing. -/
theorem err_out_gives {p : Ptr} {err : BitVec 32} (herr : err ≠ 0)
    (hdestroy : Runs (destroy lib p) h fun _ h' => Own base 0 h') :
    Runs (err_out lib p err) h (Gives base) :=
  .bind (hdestroy.mono fun _ _ ho => .pure ⟨by simpa using herr, ho.block_eq⟩)

theorem open_opts_gives (hlib : lib.Documented) (base : Heap Cell) :
    RunsIff c.Lists (open_opts lib c) base (Gives base) := by
  rw [open_opts]
  refine .bind (.calloc _ _ (.init base) fun p h hp ho => ?_)
  cases p with
  | none =>
      rw [if_pos rfl]
      refine .of_runs (by simp [Callocs.Lists, ← hp]) ?_
      exact .pure ⟨by decide, Own.block_eq (by simpa using ho)⟩
  | some a =>
      rw [if_neg (by simp)]
      have hlists : c.Lists ↔ (c.skeleton = true → c.maps = true ∧ c.progs = true) := by
        simp [Callocs.Lists, ← hp]
      refine ((create_skeleton_creates (by simpa using ho)).congr hlists).bind_runs ?_
      rintro err h (⟨herr, ho⟩ | ⟨rfl, d, rfl, hd, ho⟩)
      · -- The struct does not know of the skeleton, which has been given back.
        rw [if_pos herr]
        exact err_out_gives herr (destroy_of_skeleton_eq_none rfl ho)
      · rw [if_neg (by simp)]
        refine .bind (.deref (k := minimalBpf) ho ?_)
        have hskeleton : d.app.skeleton = some d.s := by rw [hd]
        rw [hskeleton]
        refine .bind ((hlib.open_skeleton d (by rw [hd]) (by rw [hd]) ho).mono ?_)
        rintro err h ⟨d', hsame, ho, hopen⟩
        -- `destroy` finds the skeleton, whether there is an object or not.
        have hd' : d'.app.skeleton = some d'.s := by rw [hsame.skeleton, hskeleton, hsame.s]
        rw [← hsame.obj]
        by_cases herr : err = 0
        · rw [if_neg (by simpa using herr)]
          exact .pure ⟨d', rfl, ⟨hd', hopen herr⟩, ho⟩
        · rw [if_pos herr]
          exact err_out_gives herr (destroy_of_own hlib d' hd' ho)

/-- `load` and `attach`: libbpf gets the skeleton, and leaves it open. -/
theorem deref_skeleton_keeps {f : Ptr → Prog Cell (BitVec 32)} (hf : Libbpf.Keeps f) (d : Skel)
    (hd : d.IsOpen) (ho : Own base d.own h) :
    Runs (do let x ← minimalBpf.deref (some d.obj); f x.skeleton) h fun _ h' =>
      ∃ d' : Skel, d'.obj = d.obj ∧ d'.IsOpen ∧ d'.my_pid = d.my_pid ∧ Own base d'.own h' := by
  refine .bind (.deref (k := minimalBpf) ho ?_)
  rw [hd.1]
  refine (hf d hd ho).mono ?_
  rintro _ h' ⟨d', hsame, hd', hpid, ho⟩
  exact ⟨d', hsame.obj, hd', hpid, ho⟩

end MinimalBpf

/-! ## A library that does so -/

section Plain

variable (openErr loadErr attachErr : BitVec 32)

/-- All the pointers that it writes lead to the object. -/
def plainLibbpf : Libbpf where
  open_skeleton s := do
    let k ← objectSkeleton.deref s
    if openErr ≠ 0 then
      return openErr
    else
      let bss ← calloc true (.bss 0)
      let o ← calloc true (.object bss)
      minimalBpf.assign (k.obj.map Prod.fst) fun x =>
        { x with obj := o, maps_bss := o, maps_rodata := o, progs_handle_tp := o, bss := bss }
      return 0
  load_skeleton _ := return loadErr
  attach_skeleton s := do
    let k ← objectSkeleton.deref s
    let x ← minimalBpf.deref (k.obj.map Prod.fst)
    if attachErr ≠ 0 ∨ x.links_handle_tp ≠ none then
      return attachErr
    else
      let l ← calloc true .link
      minimalBpf.assign (k.obj.map Prod.fst) fun x => { x with links_handle_tp := l }
      return 0
  link_destroy := free
  close p := do
    if p = none then
      return
    else
      let bss ← bpfObject.deref p
      free bss
      free p

variable {openErr loadErr attachErr : BitVec 32} {base h : Heap Cell}

theorem plain_open_skeleton_runs (d : Skel) (hobj : d.app.obj = none) (ho : Own base d.own h) :
    Runs ((plainLibbpf openErr loadErr attachErr).open_skeleton (some d.s)) h fun err h' =>
      ∃ d' : Skel, d.Same d' ∧ Own base d'.own h' ∧
        (err = 0 → d'.bss ≠ none ∧ d'.app.bss = d'.bss) := by
  refine .bind (.deref (k := objectSkeleton) (ho.of_eq d.own_eq) ?_)
  by_cases hfail : openErr ≠ 0
  · rw [if_pos hfail]
    exact .pure ⟨d, ⟨rfl, rfl, rfl⟩, ho, fun h => absurd h hfail⟩
  · rw [if_neg hfail]
    refine .bind (.calloc _ _ ho fun bss h hbss ho => ?_)
    refine .bind (.calloc _ _ ho fun o h ho' ho => ?_)
    have hobject : d.object = 0 := by simp [Skel.object, hobj, d.bss_obj hobj]
    have ho : Own base (pointsTo (some d.obj) (Cell.minimal_bpf d.app) + (d.lists +
        (pointsTo o (Cell.object bss) + pointsTo bss (Cell.bss 0) + d.link))) h := ho.of_eq (by
          rw [Skel.own, hobject]
          abel)
    refine .bind (.assign (k := minimalBpf) _ ho fun x h hx ho => .pure ?_)
    have hlink : x.links_handle_tp = d.app.links_handle_tp := by rw [hx]
    have hobj : x.obj = o := by rw [hx]
    have hskeleton : x.skeleton = d.app.skeleton := by rw [hx]
    have hxbss : x.bss = bss := by rw [hx]
    have hno : o ≠ none := by
      rintro rfl
      cases ho'
    have hnbss : bss ≠ none := by
      rintro rfl
      cases hbss
    refine ⟨d.update x bss 0 fun h => absurd (hobj ▸ h) hno, ⟨rfl, rfl, hskeleton⟩,
      ho.of_eq ?_, fun _ => ⟨hnbss, hxbss⟩⟩
    simp only [Skel.update, Skel.own, Skel.object, Skel.link, hobj, hlink]
    rfl

theorem plain_attach_skeleton_keeps :
    Libbpf.Keeps (plainLibbpf openErr loadErr attachErr).attach_skeleton := by
  intro base h d hd ho
  refine .bind (.deref (k := objectSkeleton) (ho.of_eq d.own_eq) ?_)
  refine .bind (.deref (k := minimalBpf) ho ?_)
  by_cases hno : attachErr ≠ 0 ∨ d.app.links_handle_tp ≠ none
  · rw [if_pos hno]
    exact .pure ⟨d, ⟨rfl, rfl, rfl⟩, hd, rfl, ho⟩
  · rw [if_neg hno]
    simp only [not_or, not_not] at hno
    refine .bind (.calloc _ _ ho fun l h _ ho => ?_)
    have hlink : d.link = 0 := by simp [Skel.link, hno.2]
    have ho : Own base (pointsTo (some d.obj) (Cell.minimal_bpf d.app) + (d.lists +
        (d.object + pointsTo l Cell.link))) h := ho.of_eq (by
          rw [Skel.own, hlink]
          abel)
    refine .bind (.assign (k := minimalBpf) _ ho fun x h hx ho => .pure ?_)
    have hlink : x.links_handle_tp = l := by rw [hx]
    have hobj : x.obj = d.app.obj := by rw [hx]
    have hskeleton : x.skeleton = d.app.skeleton := by rw [hx]
    have hbss : x.bss = d.app.bss := by rw [hx]
    refine ⟨d.update x d.bss d.my_pid fun h => d.bss_obj (hobj ▸ h), ⟨rfl, rfl, hskeleton⟩,
      ⟨hskeleton.trans hd.1, hd.2.1, hbss.trans hd.2.2⟩, rfl, ho.of_eq ?_⟩
    simp only [Skel.update, Skel.own, Skel.object, Skel.link, hobj, hlink]
    rfl

theorem plainLibbpf_documented : (plainLibbpf openErr loadErr attachErr).Documented where
  open_skeleton d hobj _ ho := plain_open_skeleton_runs d hobj ho
  load_skeleton d hd ho := .pure ⟨d, ⟨rfl, rfl, rfl⟩, hd, rfl, ho⟩
  attach_skeleton := plain_attach_skeleton_keeps
  link_destroy _ ho := .free ho fun _ ho => ho
  close p bss pid hp ho := by
    cases p with
    | none => exact .pure (ho.of_eq (by simp [hp rfl]))
    | some o =>
        refine .bind (.deref (k := bpfObject) ho ?_)
        refine .bind (.free (ho.of_eq (add_left_comm _ _ _)) fun h ho => ?_)
        exact .free ho fun h ho => ho

end Plain

end Tracing
end HelloEbpf
