import Mathlib.Algebra.Order.Group.Multiset
import Mathlib.Tactic.Abel
import Mathlib.Tactic.Common

/-!
# Alloc — C programs that allocate blocks and free them

A pointer is `NULL` or the number of a block, and a block holds a value of one type `α` as a whole.
A program stops (`none`) where it touches or frees a block that is not there; each call of `calloc`
is told whether it succeeds.

`Own base own h` says that `h` is `base` and, beside it, the blocks in `own`.  The rules
`Runs.calloc`, `Runs.free`, `Runs.deref` and `Runs.assign` say what each operation does to `own`; a
program that ends with nothing left of its own has given back all that it took (`Own.block_eq`).
`RunsIff` says exactly where a program gets to its end, and stops otherwise (`Faults`).
-/

namespace Alloc

variable {α β γ : Type}

/-- `NULL`, or a block. -/
abbrev Ptr := Option ℕ

/-- `next` is the number that the next block gets. -/
structure Heap (α : Type) where
  block : ℕ → Option α
  next : ℕ
  fresh : ∀ b, next ≤ b → block b = none

namespace Heap

def empty : Heap α where
  block _ := none
  next := 0
  fresh _ _ := rfl

/-- A block that is there gets another content, or none. -/
def put (h : Heap α) (b : ℕ) (hb : (h.block b).isSome) (x : Option α) : Heap α where
  block := Function.update h.block b x
  next := h.next
  fresh c hc := by
    have hne : c ≠ b := by
      rintro rfl
      simp [h.fresh c hc] at hb
    rw [Function.update_of_ne hne]
    exact h.fresh c hc

/-- The next block. -/
def add (h : Heap α) (x : α) : Heap α where
  block := Function.update h.block h.next (some x)
  next := h.next + 1
  fresh c hc := by
    rw [Function.update_of_ne (by omega)]
    exact h.fresh c (by omega)

end Heap

/-- A piece of a program. -/
abbrev Prog (α β : Type) := StateT (Heap α) Option β

/-- `x` is what the block holds at the start: all its bytes are zero. -/
def calloc (ok : Bool) (x : α) : Prog α Ptr := fun h =>
  if ok then some (some h.next, h.add x) else some (none, h)

def free (p : Ptr) : Prog α Unit := fun h =>
  match p with
  | none => some ((), h)
  | some b => if hb : (h.block b).isSome then some ((), h.put b hb none) else none

/-- `*p` -/
def read (p : Ptr) : Prog α α := fun h =>
  match p with
  | none => none
  | some b => (h.block b).map fun x => (x, h)

/-- `*p = x` -/
def write (p : Ptr) (x : α) : Prog α Unit := fun h =>
  match p with
  | none => none
  | some b => if hb : (h.block b).isSome then some ((), h.put b hb (some x)) else none

/-- A kind of block: what those of a C type hold. -/
structure Kind (α β : Type) where
  make : β → α
  get : α → Option β
  get_make : ∀ x, get (make x) = some x

namespace Kind

/-- `*p`, read as this type. -/
def deref (k : Kind α β) (p : Ptr) : Prog α β := do
  let c ← read p
  StateT.lift (k.get c)

/-- Assignments to fields of `*p`. -/
def assign (k : Kind α β) (p : Ptr) (f : β → β) : Prog α Unit := do
  let x ← k.deref p
  write p (k.make (f x))

end Kind

/-! ## Ownership -/

/-- The block that `p` points to, with what it holds; no block where `p` is `NULL`. -/
def pointsTo (p : Ptr) (x : α) : Multiset (ℕ × α) :=
  match p with
  | none => 0
  | some b => {(b, x)}

@[simp] theorem pointsTo_none (x : α) : pointsTo none x = 0 := rfl

/-- `h` is `base` and the blocks in `own`. -/
structure Own (base : Heap α) (own : Multiset (ℕ × α)) (h : Heap α) : Prop where
  next : base.next ≤ h.next
  nodup : (own.map Prod.fst).Nodup
  new : ∀ b x, (b, x) ∈ own → base.block b = none
  mine : ∀ b x, (b, x) ∈ own → h.block b = some x
  rest : ∀ b, (∀ x, (b, x) ∉ own) → h.block b = base.block b

namespace Own

variable {base h : Heap α} {own : Multiset (ℕ × α)} {b : ℕ} {x y : α}

theorem init (h : Heap α) : Own h 0 h where
  next := le_rfl
  nodup := by simp
  new _ _ hmem := absurd hmem (Multiset.notMem_zero _)
  mine _ _ hmem := absurd hmem (Multiset.notMem_zero _)
  rest _ _ := rfl

theorem block_eq (ho : Own base 0 h) : h.block = base.block :=
  funext fun b => ho.rest b fun _ => Multiset.notMem_zero _

theorem of_eq {own' : Multiset (ℕ × α)} (ho : Own base own h) (heq : own = own') :
    Own base own' h :=
  heq ▸ ho

/-- The other blocks that are owned are other blocks. -/
theorem ne_of_mem (ho : Own base (pointsTo (some b) x + own) h) {c : ℕ} (hc : (c, y) ∈ own) :
    c ≠ b := by
  rintro rfl
  have hnodup := ho.nodup
  rw [pointsTo, Multiset.singleton_add, Multiset.map_cons, Multiset.nodup_cons] at hnodup
  exact hnodup.1 (Multiset.mem_map.mpr ⟨(c, y), hc, rfl⟩)

theorem mem_self (b : ℕ) (x : α) (own : Multiset (ℕ × α)) : (b, x) ∈ pointsTo (some b) x + own := by
  simp [pointsTo]

theorem block_self (ho : Own base (pointsTo (some b) x + own) h) : h.block b = some x :=
  ho.mine b x (mem_self b x own)

theorem isSome_block (ho : Own base (pointsTo (some b) x + own) h) : (h.block b).isSome := by
  rw [ho.block_self]
  rfl

theorem add (ho : Own base own h) (x : α) :
    Own base (pointsTo (some h.next) x + own) (h.add x) := by
  -- Nobody has the block yet: it is behind all those that there have been.
  have hnone : ∀ y, (h.next, y) ∉ own := fun y hy => by
    have hsome := ho.mine _ _ hy
    rw [h.fresh _ le_rfl] at hsome
    cases hsome
  have hkeep : ∀ c, c ≠ h.next → (h.add x).block c = h.block c :=
    fun c hc => Function.update_of_ne hc _ _
  rw [pointsTo, Multiset.singleton_add]
  refine ⟨ho.next.trans (Nat.le_succ _), ?_, fun c y hc => ?_, fun c y hc => ?_, fun c hc => ?_⟩
  · rw [Multiset.map_cons, Multiset.nodup_cons]
    refine ⟨fun hmem => ?_, ho.nodup⟩
    obtain ⟨⟨c, y⟩, hc, rfl⟩ := Multiset.mem_map.mp hmem
    exact hnone y hc
  · rcases Multiset.mem_cons.mp hc with heq | hold
    · cases heq
      exact base.fresh _ ho.next
    · exact ho.new c y hold
  · rcases Multiset.mem_cons.mp hc with heq | hold
    · cases heq
      exact Function.update_self _ _ _
    · rw [hkeep c (fun h' => hnone y (h' ▸ hold))]
      exact ho.mine c y hold
  · have hnext : c ≠ h.next := fun h' => hc x (h' ▸ Multiset.mem_cons_self _ _)
    rw [hkeep c hnext]
    exact ho.rest c fun y hy => hc y (Multiset.mem_cons_of_mem hy)

theorem erase (ho : Own base (pointsTo (some b) x + own) h) (hb : (h.block b).isSome) :
    Own base own (h.put b hb none) where
  next := ho.next
  nodup := by
    have hnodup := ho.nodup
    rw [pointsTo, Multiset.singleton_add, Multiset.map_cons, Multiset.nodup_cons] at hnodup
    exact hnodup.2
  new c y hc := ho.new c y (Multiset.mem_add.mpr (.inr hc))
  mine c y hc := by
    have hne := ho.ne_of_mem hc
    exact (Function.update_of_ne hne _ _).trans (ho.mine c y (Multiset.mem_add.mpr (.inr hc)))
  rest c hc := by
    by_cases hcb : c = b
    · -- The block that is gone was new: `base` has none of this number either.
      subst hcb
      exact (Function.update_self _ _ _).trans (ho.new c x (mem_self c x own)).symm
    · refine (Function.update_of_ne hcb _ _).trans (ho.rest c fun y hy => ?_)
      rcases Multiset.mem_add.mp hy with hself | hold
      · exact hcb (congrArg Prod.fst (Multiset.mem_singleton.mp hself))
      · exact hc y hold

theorem set (ho : Own base (pointsTo (some b) x + own) h) (hb : (h.block b).isSome) (y : α) :
    Own base (pointsTo (some b) y + own) (h.put b hb (some y)) where
  next := ho.next
  nodup := by simpa [pointsTo] using ho.nodup
  new c z hc := by
    rcases Multiset.mem_add.mp hc with hself | hold
    · cases Multiset.mem_singleton.mp hself
      exact ho.new b x (mem_self b x own)
    · exact ho.new c z (Multiset.mem_add.mpr (.inr hold))
  mine c z hc := by
    rcases Multiset.mem_add.mp hc with hself | hold
    · cases Multiset.mem_singleton.mp hself
      exact Function.update_self _ _ _
    · exact (Function.update_of_ne (ho.ne_of_mem hold) _ _).trans
        (ho.mine c z (Multiset.mem_add.mpr (.inr hold)))
  rest c hc := by
    have hcb : c ≠ b := by
      rintro rfl
      exact hc y (mem_self c y own)
    refine (Function.update_of_ne hcb _ _).trans (ho.rest c fun z hz => ?_)
    rcases Multiset.mem_add.mp hz with hself | hold
    · exact hcb (congrArg Prod.fst (Multiset.mem_singleton.mp hself))
    · exact hc z (Multiset.mem_add.mpr (.inr hold))

end Own

/-! ## Rules -/

/-- The program gets to its end from `h`, and its result and the heap are as `Q` says. -/
def Runs (c : Prog α β) (h : Heap α) (Q : β → Heap α → Prop) : Prop :=
  ∃ r h', c h = some (r, h') ∧ Q r h'

namespace Runs

variable {base h : Heap α} {own : Multiset (ℕ × α)} {p : Ptr} {b : ℕ} {x : α}
  {k : Kind α β} {y : β}

theorem pure {r : β} {Q : β → Heap α → Prop} (hQ : Q r h) : Runs (pure r : Prog α β) h Q :=
  ⟨r, h, rfl, hQ⟩

theorem bind {c : Prog α β} {f : β → Prog α γ} {Q : γ → Heap α → Prop}
    (hc : Runs c h fun r h' => Runs (f r) h' Q) : Runs (c >>= f) h Q := by
  obtain ⟨r, h', hrun, r', h'', hrun', hQ⟩ := hc
  refine ⟨r', h'', ?_, hQ⟩
  change (c h).bind _ = _
  rw [hrun]
  exact hrun'

theorem mono {c : Prog α β} {Q Q' : β → Heap α → Prop} (hc : Runs c h Q)
    (hQ : ∀ r h', Q r h' → Q' r h') : Runs c h Q' := by
  obtain ⟨r, h', hrun, hr⟩ := hc
  exact ⟨r, h', hrun, hQ r h' hr⟩

theorem calloc (ok : Bool) (x : α) (ho : Own base own h) {Q : Ptr → Heap α → Prop}
    (hQ : ∀ p h', p.isSome = ok → Own base (pointsTo p x + own) h' → Q p h') :
    Runs (calloc ok x) h Q := by
  cases ok with
  | false => exact ⟨none, h, rfl, hQ none h rfl (by simpa using ho)⟩
  | true => exact ⟨some h.next, _, rfl, hQ (some h.next) _ rfl (ho.add x)⟩

/-- `free(NULL)` does nothing. -/
theorem free (ho : Own base (pointsTo p x + own) h) {Q : Unit → Heap α → Prop}
    (hQ : ∀ h', Own base own h' → Q () h') : Runs (free p) h Q := by
  cases p with
  | none => exact ⟨(), h, rfl, hQ h (by simpa using ho)⟩
  | some b => exact ⟨(), _, dif_pos ho.isSome_block, hQ _ (ho.erase ho.isSome_block)⟩

theorem read (ho : Own base (pointsTo (some b) x + own) h) {Q : α → Heap α → Prop} (hQ : Q x h) :
    Runs (read (some b)) h Q :=
  ⟨x, h, by simp [Alloc.read, ho.block_self], hQ⟩

theorem write (y : α) (ho : Own base (pointsTo (some b) x + own) h) {Q : Unit → Heap α → Prop}
    (hQ : ∀ h', Own base (pointsTo (some b) y + own) h' → Q () h') : Runs (write (some b) y) h Q :=
  ⟨(), _, dif_pos ho.isSome_block, hQ _ (ho.set ho.isSome_block y)⟩

theorem lift {o : Option β} {y : β} (ho : o = some y) {Q : β → Heap α → Prop} (hQ : Q y h) :
    Runs (StateT.lift o) h Q :=
  ⟨y, h, by simp [StateT.lift, ho], hQ⟩

theorem deref (ho : Own base (pointsTo (some b) (k.make y) + own) h) {Q : β → Heap α → Prop}
    (hQ : Q y h) : Runs (k.deref (some b)) h Q :=
  bind (read ho (lift (k.get_make y) hQ))

theorem assign (f : β → β) (ho : Own base (pointsTo (some b) (k.make y) + own) h)
    {Q : Unit → Heap α → Prop}
    (hQ : ∀ y' h', y' = f y → Own base (pointsTo (some b) (k.make y') + own) h' → Q () h') :
    Runs (k.assign (some b) f) h Q :=
  bind (deref ho (write (k.make (f y)) ho fun h' ho => hQ (f y) h' rfl ho))

/-- A loop keeps what each of its rounds keeps. -/
theorem forM {l : List γ} {f : γ → Prog α Unit} {I : Heap α → Prop} (hinit : I h)
    (hround : ∀ i ∈ l, ∀ h, I h → Runs (f i) h fun _ h' => I h') :
    Runs (l.forM f) h fun _ h' => I h' := by
  -- Each round starts from the heap that the one before has left.
  induction l generalizing h with
  | nil => exact pure hinit
  | cons i l ih =>
      refine bind ((hround i List.mem_cons_self h hinit).mono fun _ h' h'' => ?_)
      exact ih h'' fun i' hi' => hround i' (List.mem_cons_of_mem i hi')

end Runs

/-- The program touches or frees a block that is not there. -/
def Faults (c : Prog α β) (h : Heap α) : Prop :=
  c h = none

theorem Faults.bind {c : Prog α β} {h : Heap α} (hc : Faults c h) (f : β → Prog α γ) :
    Faults (c >>= f) h := by
  change (c h).bind _ = none
  rw [hc]
  rfl

theorem Runs.bind_faults {c : Prog α β} {h : Heap α} {f : β → Prog α γ}
    (hc : Runs c h fun r h' => Faults (f r) h') : Faults (c >>= f) h := by
  obtain ⟨r, h', hrun, hfaults⟩ := hc
  change (c h).bind _ = none
  rw [hrun]
  exact hfaults

theorem Kind.deref_null (k : Kind α β) (h : Heap α) : Faults (k.deref none) h :=
  rfl

/-- A program stops as soon as its first round does. -/
theorem Faults.forM_cons {i : γ} {f : γ → Prog α Unit} {h : Heap α} (hc : Faults (f i) h)
    (l : List γ) : Faults ((i :: l).forM f) h :=
  hc.bind _

/-- The program gets to its end where `ok` holds, and stops where it does not. -/
structure RunsIff (ok : Prop) (c : Prog α β) (h : Heap α) (Q : β → Heap α → Prop) : Prop where
  runs : ok → Runs c h Q
  faults : ¬ ok → Faults c h

namespace RunsIff

variable {ok ok' : Prop} {c : Prog α β} {f : β → Prog α γ} {h : Heap α} {Q Q' : β → Heap α → Prop}
variable {R : γ → Heap α → Prop}

theorem of_runs (hok : ok) (hc : Runs c h Q) : RunsIff ok c h Q :=
  ⟨fun _ => hc, fun hn => absurd hok hn⟩

theorem of_faults (hok : ¬ ok) (hc : Faults c h) : RunsIff ok c h Q :=
  ⟨fun hyes => absurd hyes hok, fun _ => hc⟩

theorem congr (hc : RunsIff ok c h Q) (hok : ok' ↔ ok) : RunsIff ok' c h Q :=
  ⟨fun hyes => hc.runs (hok.mp hyes), fun hn => hc.faults fun hyes => hn (hok.mpr hyes)⟩

/-- The first part gets to its end, and the rest is as it is. -/
theorem bind (hc : Runs c h fun r h' => RunsIff ok (f r) h' R) : RunsIff ok (c >>= f) h R where
  runs hok := .bind (hc.mono fun _ _ hr => hr.runs hok)
  faults hn := (hc.mono fun _ _ hr => hr.faults hn).bind_faults

/-- The first part decides, and the rest gets to its end. -/
theorem bind_runs (hc : RunsIff ok c h Q) (hf : ∀ r h', Q r h' → Runs (f r) h' R) :
    RunsIff ok (c >>= f) h R where
  runs hok := .bind ((hc.runs hok).mono hf)
  faults hn := (hc.faults hn).bind f

end RunsIff

end Alloc
