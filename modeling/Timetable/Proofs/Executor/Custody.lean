import Timetable.Proofs.Executor.Walking

/-!
# What layers hold

Two layers keep runs apart: one drops a run while another is in progress, the other
holds it back.  Each keeps a note of who is inside, and a run that leaves, by an
outcome or by unwinding, takes its name off the note.  Here it is shown that the notes
are never wrong: whatever happens, the flag is set exactly while a run is inside, and
the lock is held by the run that is inside or about to go in.

A run stands to a layer in one of three places: outside, waiting for its lock, or
inside.  A move takes it from one place to another, and the layer with it.

Main results:

* the frames of a run belong to the layers of its job (Walk.fits), and every move
  crosses each of them in one of a few ways (crossing_of_walk);
* each way keeps the note of the layer right (Layer.Kept.crossing);
* a layer that nobody has entered is as it was made (Layer.Kept.idle).
-/

namespace Timetable

namespace Layer

/-- The wrapper of which the layer was made. -/
def wrapper : Layer → Wrapper
  | recover _ => .recover
  | track t => .track t
  | retry signal limit interval _ => .retry signal limit interval
  | skip _ => .skip
  | delay _ => .delay
  | trace tracer => .trace tracer
  | tag name => .tag name

/-- The layer without the outcome that it keeps. -/
def bare : Layer → Layer
  | recover _ => .recover none
  | retry signal limit interval _ => .retry signal limit interval none
  | l => l

@[simp] theorem bare_withLast
    (o : Outcome)
    (l : Layer) :
    (l.withLast o).bare = l.bare := by
  cases l <;> rfl

@[simp] theorem bare_bare (l : Layer) : l.bare.bare = l.bare := by
  cases l <;> rfl

@[simp] theorem wrapper_bare (l : Layer) : l.bare.wrapper = l.wrapper := by
  cases l <;> rfl

@[simp] theorem wrapper_withLast
    (o : Outcome)
    (l : Layer) :
    (l.withLast o).wrapper = l.wrapper := by
  cases l <;> rfl

end Layer

@[simp] theorem Wrapper.wrapper_layer (w : Wrapper) : w.layer.wrapper = w := by
  cases w <;> rfl

@[simp] theorem Chain.map_wrapper_layers (c : Chain) : c.layers.map Layer.wrapper = c := by
  simp [Chain.layers, Function.comp_def]

/-- A frame is one of a wrapper's layers. -/
def Wrapper.fits : Wrapper → Frame → Bool
  | recover, .recover => true
  | track t, .track u => t == u
  | retry _ _ _, .retry _ _ _ _ => true
  | skip, .skip => true
  | delay, .delay => true
  | trace _, .trace _ => true
  | tag name, .tag name' => name == name'
  | _, _ => false

/-- The layer of a frame that keeps outcomes keeps no note. -/
theorem Wrapper.noNote_of_fits
    {w : Wrapper}
    {f : Frame}
    (fits : w.fits f = true)
    (keeps : f.keepsOutcome = true) :
    w ≠ .skip ∧ w ≠ .delay := by
  refine ⟨?_, ?_⟩ <;>
    · rintro rfl
      cases f <;> simp [Wrapper.fits, Frame.keepsOutcome] at fits keeps

/-- The frames of a stack are those of the first wrappers of a chain. -/
def Chain.Fits
    (chain : Chain) :
    List Frame → Prop
  | [] => True
  | f :: frames => (∃ w, chain[frames.length]? = some w ∧ w.fits f = true) ∧ Fits chain frames

namespace Job

/-- The chain of which the layers of a job were made. -/
def chain (job : Job) : Chain :=
  job.layers.map Layer.wrapper

theorem length_chain (job : Job) : job.chain.length = job.layers.length :=
  List.length_map _

theorem chain_getElem?
    {job : Job}
    {d : Nat}
    {l : Layer}
    (h : job.layers[d]? = some l) :
    job.chain[d]? = some l.wrapper := by
  rw [chain, List.getElem?_map, h, Option.map_some]

theorem exists_layer
    {job : Job}
    {d : Nat}
    {w : Wrapper}
    (h : job.chain[d]? = some w) :
    ∃ l, job.layers[d]? = some l ∧ l.wrapper = w := by
  rwa [chain, List.getElem?_map, Option.map_eq_some_iff] at h

theorem chain_setLayer
    {job : Job}
    {d : Nat}
    {l l' : Layer}
    (h : job.layers[d]? = some l)
    (same : l'.wrapper = l.wrapper) :
    (job.setLayer d l').chain = job.chain :=
  Executor.map_set_of_eq h same

theorem map_bare_setLast
    (job : Job)
    (d : Nat)
    (o : Outcome) :
    (job.setLast d o).layers.map Layer.bare = job.layers.map Layer.bare := by
  refine List.ext_getElem? fun k => ?_
  simp only [setLast, List.getElem?_map, List.getElem?_modify]
  cases job.layers[k]? with
  | none => rfl
  | some l => by_cases hk : d = k <;> simp [hk]

/-- A job with the same layers up to what they keep has the same chain. -/
theorem chain_of_map_bare
    {job job' : Job}
    (h : job'.layers.map Layer.bare = job.layers.map Layer.bare) :
    job'.chain = job.chain := by
  have hwrappers := congrArg (List.map Layer.wrapper) h
  simp only [List.map_map, Function.comp_def, Layer.wrapper_bare] at hwrappers
  exact hwrappers

/-- A frame that holds something gives up what its layer holds. -/
theorem released_cases
    {job : Job}
    {d : Nat}
    {f : Frame}
    {w : Wrapper}
    (hw : job.chain[d]? = some w)
    (fits : w.fits f = true) :
    (∃ running, f = .skip ∧ job.layers[d]? = some (.skip running) ∧
        job.released d f = job.setLayer d (.skip false)) ∨
      (∃ lock, f = .delay ∧ job.layers[d]? = some (.delay lock) ∧
        job.released d f = job.setLayer d (.delay lock.release)) ∨
      w ≠ .skip ∧ w ≠ .delay ∧ job.released d f = job := by
  obtain ⟨l, hl, rfl⟩ := exists_layer hw
  cases l with
  | skip running =>
      cases f <;> simp [Layer.wrapper, Wrapper.fits] at fits
      exact Or.inl ⟨running, rfl, hl, rfl⟩
  | delay lock =>
      cases f <;> simp [Layer.wrapper, Wrapper.fits] at fits
      exact Or.inr (Or.inl ⟨lock, rfl, hl, by simp [released, hl]⟩)
  | recover | track | retry | trace | tag =>
      refine Or.inr (Or.inr ⟨by simp [Layer.wrapper], by simp [Layer.wrapper], ?_⟩)
      cases f <;> simp [Layer.wrapper, Wrapper.fits] at fits
      all_goals rfl

theorem chain_released
    {job : Job}
    {d : Nat}
    {f : Frame}
    {w : Wrapper}
    (hw : job.chain[d]? = some w)
    (fits : w.fits f = true) :
    (job.released d f).chain = job.chain := by
  rcases released_cases hw fits with ⟨running, -, hl, h⟩ | ⟨lock, -, hl, h⟩ | ⟨-, -, h⟩
  · rw [h]
    exact chain_setLayer hl rfl
  · rw [h]
    exact chain_setLayer hl rfl
  · rw [h]

end Job

namespace Executor

variable {e e' : Executor} {r : RunId} {run run' : Run} {job job' : Job} {signs : List Sign}

/-- A layer that lets a run in stays of its wrapper, and the frame fits it. -/
theorem Opens.fits
    {ctx ctx' : Context}
    {l l' : Layer}
    {f : Frame}
    (h : e.Opens r ctx l f l' ctx') :
    l'.wrapper = l.wrapper ∧ l.wrapper.fits f = true := by
  cases h <;> simp [Layer.wrapper, Wrapper.fits]

/-- A move keeps the chain of the job, and the frames of the run fit it. -/
theorem Walk.fits
    (h : e.Walk r run job run' job' signs)
    (fits : job.chain.Fits run.stack) :
    job'.chain = job.chain ∧ job.chain.Fits run'.stack := by
  have hlast : ∀ d o, (job.setLast d o).chain = job.chain := fun d o =>
    Job.chain_of_map_bare (job.map_bare_setLast d o)
  have hpop : ∀ {f frames}, run.stack = f :: frames →
      (∃ w, job.chain[frames.length]? = some w ∧ w.fits f = true) ∧ job.chain.Fits frames := by
    intro f frames stack
    rwa [stack] at fits
  cases h with
  | enter control layer opens =>
      obtain ⟨hsame, hfits⟩ := opens.fits
      exact ⟨Job.chain_setLayer layer hsame, ⟨_, Job.chain_getElem? layer, hfits⟩, fits⟩
  | join control layer held => exact ⟨Job.chain_setLayer layer rfl, fits⟩
  | take control layer =>
      exact ⟨Job.chain_setLayer layer rfl, ⟨_, Job.chain_getElem? layer, rfl⟩, fits⟩
  | letIn control layer held => exact ⟨rfl, ⟨_, Job.chain_getElem? layer, rfl⟩, fits⟩
  | skip | miss | call | wake | proceed | answer | burst | finish | escape => exact ⟨rfl, fits⟩
  | bar control stack => exact ⟨hlast _ _, (hpop stack).2⟩
  | rescue control stack => exact ⟨hlast _ _, (hpop stack).2⟩
  | settle control stack => exact ⟨hlast _ _, (hpop stack).2⟩
  | stop control stack => exact ⟨hlast _ _, (hpop stack).2⟩
  | overflow control stack => exact ⟨rfl, (hpop stack).2⟩
  | pause control stack | again control stack =>
      obtain ⟨⟨w, hw, hfits⟩, hframes⟩ := hpop stack
      exact ⟨rfl, ⟨w, hw, by cases w <;> exact hfits⟩, hframes⟩
  | pass control stack | unwind control stack =>
      obtain ⟨⟨w, hw, hfits⟩, hframes⟩ := hpop stack
      exact ⟨Job.chain_released hw hfits, hframes⟩

end Executor

/-- Where a run stands to a layer of its job. -/
inductive Place where
  | outside
  /-- The run has found the lock taken, and has not joined its queue yet. -/
  | coming
  | waiting
  | inside
  deriving DecidableEq, Repr

/-- Whoever stands there holds the lock of the layer, or waits for it. -/
def Place.isLined : Place → Bool
  | waiting => true
  | inside => true
  | _ => false

/-- Where a control keeps a run in front of the next layer. -/
def Control.door : Control → Place
  | joining _ => .coming
  | queued _ => .waiting
  | _ => .outside

namespace Run

/-- Where the run stands to the layer at a depth. -/
def place
    (run : Run)
    (d : Nat) :
    Place :=
  if d < run.stack.length then .inside
  else if run.stack.length = d then run.control.door
  else .outside

theorem place_of_lt
    {run : Run}
    {d : Nat}
    (h : d < run.stack.length) :
    run.place d = .inside :=
  if_pos h

theorem place_of_free
    {run : Run}
    {d : Nat}
    (free : run.control.door = .outside)
    (h : run.stack.length ≤ d) :
    run.place d = .outside := by
  simp [place, free, h]

/-- A run stands to the next layer as its control says, and outside of all further ones. -/
theorem place_of_le
    {run : Run}
    {d : Nat}
    (h : run.stack.length ≤ d) :
    run.place d = if run.stack.length = d then run.control.door else .outside :=
  if_neg (Nat.not_lt.2 h)

theorem place_self (run : Run) : run.place run.stack.length = run.control.door := by
  rw [place_of_le le_rfl, if_pos rfl]

/-- Two runs that want no lock and have entered equally many layers stand alike. -/
theorem place_eq_of_free
    {run run' : Run}
    (free : run.control.door = .outside)
    (free' : run'.control.door = .outside)
    (h : run'.stack.length = run.stack.length)
    (d : Nat) :
    run'.place d = run.place d := by
  simp [place, free, free', h]

/-- A run goes into the next layer, and stays where it is to all others. -/
theorem place_push
    (run : Run)
    (f : Frame)
    (ctx : Context) :
    place { run with stack := f :: run.stack, control := .entering ctx } run.stack.length =
        .inside ∧
      ∀ d, d ≠ run.stack.length →
        place { run with stack := f :: run.stack, control := .entering ctx } d =
          run.place d := by
  refine ⟨place_of_lt (by simp), ?_⟩
  intro d hd
  have hlt : d < run.stack.length + 1 ↔ d < run.stack.length := by omega
  simp [place, Control.door, hlt, Ne.symm hd]

/-- A run whose control changes stands elsewhere to the next layer alone. -/
theorem place_control
    (run : Run)
    (c : Control) :
    place { run with control := c } run.stack.length = c.door ∧
      ∀ d, d ≠ run.stack.length → place { run with control := c } d = run.place d := by
  refine ⟨place_self { run with control := c }, fun d hd => ?_⟩
  simp [place, Ne.symm hd]

end Run

/-- A run and a layer after the run has gone from one place to another. -/
inductive Crossing
    (r : RunId) :
    Layer → Layer → Place → Place → Prop
  | stay
      {l l' : Layer}
      (same : l'.bare = l.bare)
      (p : Place) :
      Crossing r l l' p p
  | enterSkip : Crossing r (.skip false) (.skip true) .outside .inside
  | leaveSkip (running : Bool) : Crossing r (.skip running) (.skip false) .inside .outside
  | enterDelay
      {lock : Lock}
      (free : lock.holder = none) :
      Crossing r (.delay lock) (.delay { lock with holder := some r }) .outside .inside
  | miss
      {lock : Lock}
      {holder : RunId}
      (held : lock.holder = some holder) :
      Crossing r (.delay lock) (.delay lock) .outside .coming
  | join
      {lock : Lock}
      {holder : RunId}
      (held : lock.holder = some holder) :
      Crossing r (.delay lock) (.delay (lock.join r)) .coming .waiting
  | take
      {lock : Lock}
      (free : lock.holder = none) :
      Crossing r (.delay lock) (.delay { lock with holder := some r }) .coming .inside
  | letIn
      {lock : Lock}
      (held : lock.holder = some r) :
      Crossing r (.delay lock) (.delay lock) .waiting .inside
  | leaveDelay (lock : Lock) :
      Crossing r (.delay lock) (.delay lock.release) .inside .outside
  /-- A layer that keeps no note may be entered and left freely. -/
  | free
      {l l' : Layer}
      (same : l'.bare = l.bare)
      (noSkip : l.wrapper ≠ .skip)
      (noDelay : l.wrapper ≠ .delay)
      (p q : Place) :
      Crossing r l l' p q

namespace Executor

variable {e e' : Executor} {r : RunId} {run run' : Run} {job job' : Job} {signs : List Sign}

theorem Opens.crossing
    {ctx ctx' : Context}
    {l l' : Layer}
    {f : Frame}
    (h : e.Opens r ctx l f l' ctx') :
    Crossing r l l' .outside .inside := by
  cases h with
  | skip => exact .enterSkip
  | delay free => exact .enterDelay free
  | recover | track | retry | trace | tag =>
      exact .free rfl (by simp [Layer.wrapper]) (by simp [Layer.wrapper]) _ _

/-- A layer with the same others is not crossed by a run that stays where it is. -/
theorem crossing_of_bare
    (same : job'.layers.map Layer.bare = job.layers.map Layer.bare)
    {d : Nat}
    {l : Layer}
    (hl : job.layers[d]? = some l)
    {p q : Place}
    (crossing : ∀ l', l'.bare = l.bare → Crossing r l l' p q) :
    ∃ l', job'.layers[d]? = some l' ∧ Crossing r l l' p q := by
  have hd := congrArg (fun layers => layers[d]?) same
  simp only [List.getElem?_map, hl, Option.map_some] at hd
  obtain ⟨l', hl', hbare⟩ := Option.map_eq_some_iff.1 hd
  exact ⟨l', hl', crossing l' hbare⟩

/-- A layer is set, and the run crosses it alone. -/
theorem crossing_of_setLayer
    {D : Nat}
    {l₀ l₀' : Layer}
    (hl₀ : job.layers[D]? = some l₀)
    (here : Crossing r l₀ l₀' (run.place D) (run'.place D))
    (elsewhere : ∀ d, d ≠ D → run'.place d = run.place d)
    {d : Nat}
    {l : Layer}
    (hl : job.layers[d]? = some l) :
    ∃ l', (job.setLayer D l₀').layers[d]? = some l' ∧
      Crossing r l l' (run.place d) (run'.place d) := by
  by_cases hd : d = D
  · subst hd
    obtain rfl := Option.some.inj (hl.symm.trans hl₀)
    exact ⟨l₀', List.getElem?_set_self (List.getElem?_eq_some_iff.1 hl).1, here⟩
  · refine ⟨l, (List.getElem?_set_ne (Ne.symm hd)).trans hl, ?_⟩
    rw [elsewhere d hd]
    exact .stay rfl _

/-- A run that leaves a layer leaves all others where they are. -/
theorem place_of_pop
    {f : Frame}
    {frames : List Frame}
    (stack : run.stack = f :: frames)
    (free : run.control.door = .outside)
    (stack' : run'.stack = frames)
    (free' : run'.control.door = .outside) :
    run.place frames.length = .inside ∧ run'.place frames.length = .outside ∧
      ∀ d, d ≠ frames.length → run'.place d = run.place d := by
  refine ⟨Run.place_of_lt (by simp [stack]), Run.place_of_free free' (by simp [stack']), ?_⟩
  intro d hd
  have hlt : d < frames.length + 1 ↔ d < frames.length := by omega
  simp [Run.place, free, free', stack, stack', hlt]

/-- A run leaves a layer that keeps no note. -/
theorem crossing_of_pop
    {f : Frame}
    {frames : List Frame}
    {w : Wrapper}
    (stack : run.stack = f :: frames)
    (free : run.control.door = .outside)
    (stack' : run'.stack = frames)
    (free' : run'.control.door = .outside)
    (hw : job.chain[frames.length]? = some w)
    (noSkip : w ≠ .skip)
    (noDelay : w ≠ .delay)
    (same : job'.layers.map Layer.bare = job.layers.map Layer.bare)
    {d : Nat}
    {l : Layer}
    (hl : job.layers[d]? = some l) :
    ∃ l', job'.layers[d]? = some l' ∧ Crossing r l l' (run.place d) (run'.place d) := by
  obtain ⟨-, -, helsewhere⟩ := place_of_pop stack free stack' free'
  refine crossing_of_bare same hl ?_
  intro l' hbare
  by_cases hd : d = frames.length
  · subst hd
    obtain rfl := Option.some.inj ((Job.chain_getElem? hl).symm.trans hw)
    exact .free hbare noSkip noDelay _ _
  · rw [helsewhere d hd]
    exact .stay hbare _

/-- A run leaves a layer, which is given up. -/
theorem crossing_of_release
    {f : Frame}
    {frames : List Frame}
    {w : Wrapper}
    (stack : run.stack = f :: frames)
    (free : run.control.door = .outside)
    (stack' : run'.stack = frames)
    (free' : run'.control.door = .outside)
    (hw : job.chain[frames.length]? = some w)
    (fits : w.fits f = true)
    {d : Nat}
    {l : Layer}
    (hl : job.layers[d]? = some l) :
    ∃ l', (job.released frames.length f).layers[d]? = some l' ∧
      Crossing r l l' (run.place d) (run'.place d) := by
  obtain ⟨hinside, houtside, helsewhere⟩ := place_of_pop stack free stack' free'
  rcases Job.released_cases hw fits with
    ⟨running, -, hlayer, h⟩ | ⟨lock, -, hlayer, h⟩ | ⟨noSkip, noDelay, h⟩
  · rw [h]
    refine crossing_of_setLayer hlayer ?_ helsewhere hl
    rw [hinside, houtside]
    exact .leaveSkip running
  · rw [h]
    refine crossing_of_setLayer hlayer ?_ helsewhere hl
    rw [hinside, houtside]
    exact .leaveDelay lock
  · rw [h]
    exact crossing_of_pop stack free stack' free' hw noSkip noDelay rfl hl

@[simp]
theorem door_callControl
    (e : Executor)
    (task : Task)
    (ctx : Context) :
    (e.callControl task ctx).door = .outside := by
  cases hsleep : (task.script task.calls e.calls.length).sleep <;>
    simp [callControl, Control.door, hsleep]

/-- **A move crosses each layer of the job in one of these ways.** -/
theorem crossing_of_walk
    (h : e.Walk r run job run' job' signs)
    (fits : job.chain.Fits run.stack)
    {d : Nat}
    {l : Layer}
    (hl : job.layers[d]? = some l) :
    ∃ l', job'.layers[d]? = some l' ∧ Crossing r l l' (run.place d) (run'.place d) := by
  have hfree : ∀ c, run.control = c → c.door = .outside → run.control.door = .outside := by
    rintro c rfl hc
    exact hc
  have hstay : run.control.door = .outside → run'.control.door = .outside →
      run'.stack.length = run.stack.length →
      job'.layers.map Layer.bare = job.layers.map Layer.bare →
      ∃ l', job'.layers[d]? = some l' ∧ Crossing r l l' (run.place d) (run'.place d) := by
    intro free free' hlength same
    rw [Run.place_eq_of_free free free' hlength]
    exact crossing_of_bare same hl fun l' hl' => .stay hl' _
  have hpop : ∀ {f frames}, run.stack = f :: frames →
      ∃ w, job.chain[frames.length]? = some w ∧ w.fits f = true := by
    intro f frames stack
    rw [stack] at fits
    exact fits.1
  cases h with
  | enter control layer opens =>
      have free := hfree _ control rfl
      obtain ⟨hinside, helsewhere⟩ := run.place_push _ _
      refine crossing_of_setLayer layer ?_ helsewhere hl
      rw [hinside, Run.place_of_free free le_rfl]
      exact opens.crossing
  | miss control layer held =>
      obtain ⟨hcoming, helsewhere⟩ := run.place_control _
      rw [← Job.setLayer_self layer]
      refine crossing_of_setLayer layer ?_ helsewhere hl
      rw [hcoming, run.place_self, control]
      exact .miss held
  | join control layer held =>
      obtain ⟨hwaiting, helsewhere⟩ := run.place_control _
      refine crossing_of_setLayer layer ?_ helsewhere hl
      rw [hwaiting, run.place_self, control]
      exact .join held
  | take control layer free =>
      obtain ⟨hinside, helsewhere⟩ := run.place_push .delay _
      refine crossing_of_setLayer layer ?_ helsewhere hl
      rw [hinside, run.place_self, control]
      exact .take free
  | letIn control layer held =>
      obtain ⟨hinside, helsewhere⟩ := run.place_push .delay _
      rw [← Job.setLayer_self layer]
      refine crossing_of_setLayer layer ?_ helsewhere hl
      rw [hinside, run.place_self, control]
      exact .letIn held
  | skip control | wake control | proceed control | answer control | burst control
  | finish control | escape control =>
      exact hstay (hfree _ control rfl) rfl rfl rfl
  | call control => exact hstay (hfree _ control rfl) (e.door_callControl _ _) rfl rfl
  | pause control stack | again control stack =>
      exact hstay (hfree _ control rfl) rfl (by simp [stack]) rfl
  | bar control stack | rescue control stack | settle control stack | stop control stack =>
      obtain ⟨w, hw, hfits⟩ := hpop stack
      obtain ⟨noSkip, noDelay⟩ := Wrapper.noNote_of_fits hfits rfl
      exact crossing_of_pop stack (hfree _ control rfl) rfl rfl hw noSkip noDelay
        (job.map_bare_setLast _ _) hl
  | overflow control stack =>
      obtain ⟨w, hw, hfits⟩ := hpop stack
      obtain ⟨noSkip, noDelay⟩ := Wrapper.noNote_of_fits hfits rfl
      exact crossing_of_pop stack (hfree _ control rfl) rfl rfl hw noSkip noDelay rfl hl
  | pass control stack | unwind control stack =>
      obtain ⟨w, hw, hfits⟩ := hpop stack
      exact crossing_of_release stack (hfree _ control rfl) rfl rfl hw hfits hl

/-- Where the runs stand to the layer at a depth of a job. -/
def places
    (e : Executor)
    (j : JobId)
    (d : Nat)
    (r : RunId) :
    Place :=
  match e.runs[r]? with
  | some run => if run.job = j then run.place d else .outside
  | none => .outside

end Executor

/-- The run that holds a lock, and behind it those that wait for it. -/
def Lock.line (lock : Lock) : List RunId :=
  lock.holder.toList ++ lock.queue

/-- The note of a lock is right: those on it are the runs that are inside or wait, each once;
the run inside holds the lock, and nobody waits for a lock that nobody holds. -/
structure Lock.Kept
    (place : RunId → Place)
    (lock : Lock) :
    Prop where
  line : ∀ r, r ∈ lock.line ↔ (place r).isLined = true
  nodup : lock.line.Nodup
  inside : ∀ r, place r = .inside → lock.holder = some r
  free : lock.holder = none → lock.queue = []

/-- The note of a layer is right: its flag is set exactly while a run is inside, and then it is
one run only; or its lock is kept. -/
def Layer.Kept
    (place : RunId → Place) :
    Layer → Prop
  | skip running =>
      (running = true ↔ ∃ r, place r = .inside) ∧
        ∀ r r', place r = .inside → place r' = .inside → r = r'
  | delay lock => lock.Kept place
  | _ => True

namespace Lock

variable {place : RunId → Place} {lock : Lock} {r : RunId}

/-- A run enters a free lock. -/
theorem Kept.enter
    (kept : lock.Kept place)
    (free : lock.holder = none) :
    Kept (Function.update place r .inside) { lock with holder := some r } := by
  have hline : lock.line = lock.queue := by
    rw [Lock.line, free]
    rfl
  have hqueue := kept.free free
  refine ⟨?_, ?_, ?_, fun h => by cases h⟩
  · intro r'
    have hold := kept.line r'
    rw [hline, hqueue] at hold
    by_cases hr : r' = r
    · subst hr
      simp [Lock.line, Place.isLined]
    · simpa [Lock.line, hqueue, hr] using hold
  · simp [Lock.line, hqueue]
  · intro r' hinside
    by_cases hr : r' = r
    · rw [hr]
    · rw [Function.update_of_ne hr] at hinside
      rw [kept.inside r' hinside] at free
      cases free

/-- A run that is not on the lock may come or go, as long as it does not join. -/
theorem Kept.elsewhere
    {p : Place}
    (kept : lock.Kept place)
    (off : (place r).isLined = false)
    (off' : p.isLined = false) :
    lock.Kept (Function.update place r p) := by
  refine ⟨?_, kept.nodup, ?_, kept.free⟩
  · intro r'
    by_cases hr : r' = r
    · subst hr
      simp [kept.line, off, off']
    · simpa [hr] using kept.line r'
  · intro r' hinside
    by_cases hr : r' = r
    · subst hr
      rw [Function.update_self] at hinside
      rw [hinside] at off'
      cases off'
    · rw [Function.update_of_ne hr] at hinside
      exact kept.inside r' hinside

/-- A run joins the queue of a lock in use. -/
theorem Kept.join
    (kept : lock.Kept place)
    {holder : RunId}
    (held : lock.holder = some holder)
    (coming : place r = .coming) :
    (lock.join r).Kept (Function.update place r .waiting) := by
  have hline : (lock.join r).line = lock.line ++ [r] := by
    simp [Lock.line, Lock.join]
  have hnew : r ∉ lock.line := by simp [kept.line, coming, Place.isLined]
  refine ⟨?_, ?_, ?_, ?_⟩
  · intro r'
    rw [hline]
    by_cases hr : r' = r
    · subst hr
      simp [Place.isLined]
    · simpa [hr] using kept.line r'
  · rw [hline, ← List.concat_eq_append]
    exact kept.nodup.concat hnew
  · intro r' hinside
    by_cases hr : r' = r
    · subst hr
      simp at hinside
    · rw [Function.update_of_ne hr] at hinside
      exact kept.inside r' hinside
  · intro hfree
    rw [Lock.join, held] at hfree
    cases hfree

/-- The lock has come to a run, which goes inside. -/
theorem Kept.letIn
    (kept : lock.Kept place)
    (held : lock.holder = some r) :
    lock.Kept (Function.update place r .inside) := by
  refine ⟨?_, kept.nodup, ?_, kept.free⟩
  · intro r'
    by_cases hr : r' = r
    · subst hr
      simp [Lock.line, held, Place.isLined]
    · simpa [hr] using kept.line r'
  · intro r' hinside
    by_cases hr : r' = r
    · rw [hr, held]
    · rw [Function.update_of_ne hr] at hinside
      exact kept.inside r' hinside

/-- Behind the holder of a lock stand those on it once the lock is released. -/
theorem line_of_held (held : lock.holder = some r) : lock.line = r :: lock.release.line := by
  rw [line, held]
  unfold release line
  cases lock.queue <;> rfl

/-- The run to which the lock has come leaves, and the lock goes to the next one. -/
theorem Kept.release
    (kept : lock.Kept place)
    (held : lock.holder = some r) :
    lock.release.Kept (Function.update place r .outside) := by
  have hline := line_of_held held
  have hnodup := kept.nodup
  rw [hline, List.nodup_cons] at hnodup
  refine ⟨?_, hnodup.2, ?_, ?_⟩
  · intro r'
    have hold := kept.line r'
    rw [hline, List.mem_cons] at hold
    by_cases hr : r' = r
    · subst hr
      simpa [Place.isLined] using hnodup.1
    · simpa [hr] using hold
  · intro r' hinside
    by_cases hr : r' = r
    · subst hr
      simp at hinside
    · rw [Function.update_of_ne hr] at hinside
      rw [kept.inside r' hinside] at held
      exact absurd (Option.some.inj held) hr
  · unfold Lock.release
    split
    · exact fun _ => rfl
    · exact fun h => by cases h

end Lock

namespace Layer

variable {place : RunId → Place} {l l' : Layer} {r : RunId}

@[simp] theorem kept_bare : l.bare.Kept place ↔ l.Kept place := by
  cases l <;> exact Iff.rfl

theorem kept_congr (same : l'.bare = l.bare) : l'.Kept place ↔ l.Kept place := by
  rw [← kept_bare, same, kept_bare]

/-- The note of a layer is right when the layer is made. -/
theorem kept_layer (w : Wrapper) : w.layer.Kept fun _ => .outside := by
  cases w with
  | skip => exact ⟨by simp, by simp⟩
  | delay =>
      exact ⟨by simp [Lock.line, Place.isLined], by simp [Lock.line], by simp, fun _ => rfl⟩
  | recover | track | retry | trace | tag => trivial

/-- **Whichever way a layer is crossed, its note stays right.** -/
theorem Kept.crossing
    {p q : Place}
    (kept : l.Kept place)
    (crossing : Crossing r l l' p q)
    (from' : place r = p) :
    l'.Kept (Function.update place r q) := by
  cases crossing with
  | stay same =>
      rw [← from', Function.update_eq_self]
      exact (kept_congr same).2 kept
  | enterSkip =>
      obtain ⟨hflag, -⟩ := kept
      have hnobody : ∀ r', place r' ≠ .inside := fun r' hr' => by
        have hset := hflag.2 ⟨r', hr'⟩
        cases hset
      have honly : ∀ r', Function.update place r .inside r' = .inside → r' = r := by
        intro r' hr'
        by_contra hr
        rw [Function.update_of_ne hr] at hr'
        exact hnobody r' hr'
      exact ⟨⟨fun _ => ⟨r, Function.update_self ..⟩, fun _ => rfl⟩,
        fun a b ha hb => (honly a ha).trans (honly b hb).symm⟩
  | leaveSkip running =>
      have hnobody : ∀ r', Function.update place r .outside r' ≠ .inside := by
        intro r' hr'
        by_cases hr : r' = r
        · subst hr
          simp at hr'
        · rw [Function.update_of_ne hr] at hr'
          exact hr (kept.2 r' r hr' from')
      refine ⟨⟨fun h => ?_, fun ⟨r', hr'⟩ => absurd hr' (hnobody r')⟩, ?_⟩
      · cases h
      · exact fun a _ ha _ => absurd ha (hnobody a)
  | enterDelay free | take free => exact Lock.Kept.enter kept free
  | miss held => exact Lock.Kept.elsewhere kept (by rw [from']; rfl) rfl
  | join held => exact Lock.Kept.join kept held from'
  | letIn held => exact Lock.Kept.letIn kept held
  | leaveDelay lock => exact Lock.Kept.release kept (kept.inside r from')
  | free same noSkip noDelay =>
      refine (kept_congr same).2 ?_
      cases l with
      | skip => exact absurd rfl noSkip
      | delay => exact absurd rfl noDelay
      | recover | track | retry | trace | tag => trivial

/-- A layer to which all runs stand outside is as it was made, but for the outcome it keeps. -/
theorem Kept.idle
    (kept : l.Kept fun _ => .outside) :
    l.bare = l.wrapper.layer := by
  cases l with
  | skip running =>
      have hclear : running = false := by
        have hflag := kept.1
        simpa using hflag
      rw [hclear]
      rfl
  | delay lock =>
      have hline : lock.line = [] :=
        List.eq_nil_iff_forall_not_mem.2 fun r hr => Bool.false_ne_true ((kept.line r).1 hr)
      obtain ⟨holder, queue⟩ := lock
      obtain ⟨hholder, hqueue⟩ := List.append_eq_nil_iff.1 hline
      obtain rfl : queue = [] := hqueue
      obtain rfl : holder = none := Option.toList_eq_nil_iff.1 hholder
      rfl
  | recover | track | retry | trace | tag => rfl

end Layer

end Timetable
