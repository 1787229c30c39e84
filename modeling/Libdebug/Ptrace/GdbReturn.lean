import Libdebug.Ptrace.Tables

/-!
`migrate_from_gdb`: the threads are attached to again, those that have come into being are
registered, and the hardware breakpoints are removed and installed once more on all of them.
`check_for_new_threads` passes one argument too many to `register_new_thread`, so that it raises
where there is a thread to be registered.
-/

namespace Libdebug.Ptrace.GdbReturn

open Libdebug.Foundation Libdebug.Cffi

variable {K : Type}

/-! ### The C layer -/

/-- `ptrace_reattach_from_gdb`, on a list of nodes; failures are printed only. -/
def reattachNodes (k : Kernel K) (attach : K → Int → K) :
    List Thread → GlobalState → World K → GlobalState × World K
  | [], g, w => (g, w)
  | t :: rest, g, w =>
      let attached : World K := { w with os := attach w.os t.tid }
      reattachNodes k attach rest (g.getregs k attached t.tid t.regs) attached

def ptraceReattachFromGdb (k : Kernel K) (attach : K → Int → K) (g : GlobalState) (w : World K) :
    GlobalState × World K := reattachNodes k attach g.tHead g w

/-! ### The interface -/

/-- Why a method does not return: for a reason there is elsewhere, or because a function was
called with arguments that it does not take -/
inductive Stop where
  | abort (reason : Abort)
  | typeError (message : String)
  deriving DecidableEq

abbrev Migrating (K : Type) := EStateM Stop (Debugger K)

/-- A method of the interface -/
def call {α : Type} (p : Py K α) : Migrating K α := fun s =>
  match p.run s with
  | .ok a t => .ok a t
  | .error reason t => .error (.abort reason) t

theorem run_call {α : Type} (p : Py K α) (s : Debugger K) : (call p).run s =
    match p.run s with
    | .ok a t => .ok a t
    | .error reason t => .error (.abort reason) t := rfl

/-- What is passed to a method, besides the object it belongs to -/
inductive Argument where
  | threadId (threadId : Int)
  | internalDebugger

/-- What is raised where `register_new_thread` is given so many arguments, with the object -/
def argumentError (count : Nat) : Stop :=
  .typeError ("PtraceInterface.register_new_thread() takes 2 positional arguments but " ++
    s!"{count} were given")

/-- A call of `register_new_thread`, which takes the id of a thread -/
def callRegisterNewThread (k : Kernel K) (arguments : List Argument) : Migrating K Unit :=
  match arguments with
  | [.threadId newThreadId] => call (registerNewThread k newThreadId)
  | _ => throw (argumentError (arguments.length + 1))

/-- The body of the loop of `check_for_new_threads` -/
def checkTask (k : Kernel K) (tid : Int) : Migrating K Unit := do
  let s ← get
  if s.getThreadById tid = none then
    callRegisterNewThread k [.threadId tid, .internalDebugger]

/-- `check_for_new_threads`; there are no tasks where `/proc/pid/task` does not exist. -/
def checkForNewThreads (k : Kernel K) (tasksOf : Int → Option (List Int)) (pid : Int) :
    Migrating K Unit :=
  match tasksOf pid with
  | none => pure ()
  | some tids => tids.forM (checkTask k)

/-- The breakpoint is removed and installed again on one thread. -/
def reinstallOn (k : Kernel K) (bp : Ref) (threadId : Int) : Py K Unit := do
  removeBreakpoint k threadId bp
  installBreakpoint k threadId bp

/-- The body of the last loop of `migrate_from_gdb` -/
def reinstall (k : Kernel K) (bp : Ref) : Py K Unit := do
  let s ← get
  if (s.objects bp).hardware ∧ (s.objects bp).enabled then
    s.hardwareBpHelpers.keys.forM (reinstallOn k bp)

def reinstallAll (k : Kernel K) : Py K Unit := do
  let s ← get
  s.breakpoints.values.forM (reinstall k)

def migrateFromGdb (k : Kernel K) (attach : K → Int → K) (tasksOf : Int → Option (List Int)) :
    Migrating K Unit := do
  call (callLib fun g w => ((), ptraceReattachFromGdb k attach g w))
  let s ← get
  checkForNewThreads k tasksOf s.processId
  call (reinstallAll k)

/-! ### What is to be kept -/

variable {k : Kernel K} {s t r : Debugger K} {bp : Ref} {threadId : Int}
  {helper before after : HardwareBreakpointManager}

/-- The manager holds the breakpoint once, and no other object equal to it. -/
def HoldsOnce (objects : Ref → Breakpoint) (helper : HardwareBreakpointManager) (bp : Ref) : Prop :=
  helper.held.filter (fun other => objects other = objects bp) = [bp]

/-- Every thread has a manager, and the enabled hardware breakpoints have been installed in it. -/
structure ReadyToMigrate (s : Debugger K) : Prop where
  managed : ∀ thread ∈ s.threads, thread.dead = false →
    thread.threadId ∈ s.hardwareBpHelpers.keys
  counted : ∀ helper ∈ s.hardwareBpHelpers.values, helper.breakpointCount = helper.held.length
  once : ∀ helper ∈ s.hardwareBpHelpers.values, ∀ bp ∈ s.enabledHardware,
    HoldsOnce s.objects helper bp
  valid : ∀ bp ∈ s.enabledHardware,
    (ctrlCondVal (s.objects bp).condition).isSome ∧ (ctrlLenVal (s.objects bp).length).isSome

/-- The tasks that were not registered are, once each, and the manager of every thread holds each
enabled hardware breakpoint once. -/
structure Resynchronises (s t : Debugger K) (tasks : List Int) : Prop where
  registered : ∃ added : List ThreadContext, t.threads = s.threads ++ added ∧
    added.map (·.threadId) = tasks.filter fun tid => s.getThreadById tid = none
  breakpoints : t.enabledHardware = s.enabledHardware
  held : ∀ thread ∈ t.threads, thread.dead = false →
    ∃ helper, t.hardwareBpHelpers.get? thread.threadId = some helper ∧
      ∀ bp ∈ t.enabledHardware, HoldsOnce t.objects helper bp

/-! ### One breakpoint on one thread -/

theorem HoldsOnce.mem {objects : Ref → Breakpoint} (holds : HoldsOnce objects helper bp) :
    bp ∈ helper.held := by
  have listed : bp ∈ helper.held.filter fun other => objects other = objects bp := by
    rw [holds]
    exact List.mem_singleton_self bp
  exact (List.mem_filter.mp listed).1

theorem HoldsOnce.eq {objects : Ref → Breakpoint} (holds : HoldsOnce objects helper bp)
    {other : Ref} (held : other ∈ helper.held) (equal : objects other = objects bp) :
    other = bp := by
  have listed : other ∈ helper.held.filter fun other => objects other = objects bp :=
    List.mem_filter.mpr ⟨held, decide_eq_true equal⟩
  rw [holds] at listed
  exact List.mem_singleton.mp listed

theorem HoldsOnce.perm {objects : Ref → Breakpoint} (holds : HoldsOnce objects before bp)
    (same : after.held.Perm before.held) : HoldsOnce objects after bp := by
  have filtered := same.filter fun other => decide (objects other = objects bp)
  rw [HoldsOnce] at holds
  rw [holds] at filtered
  exact List.perm_singleton.mp filtered

/-- What `remove_breakpoint` needs to succeed -/
theorem removeBreakpoint_returns (reads : ReadsUserArea k)
    (found : s.hardwareBpHelpers.get? threadId = some helper) (counted : 0 < helper.breakpointCount)
    (held : bp ∈ helper.held) : ∃ t, (removeBreakpoint k threadId bp).run s = .ok () t := by
  obtain ⟨own, _, there⟩ := List.mem_filterMap.mp held
  have equal : (s.findDebugReg helper bp).isSome := by
    rw [Debugger.findDebugReg, List.find?_isSome]
    exact ⟨own, own.mem_all, by simp [there]⟩
  obtain ⟨register, first⟩ := Option.isSome_iff_exists.mp equal
  obtain ⟨os, written⟩ := run_pokeUser k threadId register.offset 0 s
  obtain ⟨ctrl, peeked⟩ := run_peekUser reads threadId dr7Offset
    (s.withHelpers os s.hardwareBpHelpers)
  obtain ⟨os', control⟩ := run_pokeUser k threadId dr7Offset (clearBits ctrl register.ctrlLocal)
    (s.withHelpers os s.hardwareBpHelpers)
  have some : ¬ helper.breakpointCount ≤ 0 := Nat.not_le.mpr counted
  simp only [removeBreakpoint, EStateM.run_bind, run_getHelper found, EStateM.run_get, some,
    if_false, first, written, peeked, control, EStateM.run_modify]
  exact ⟨_, rfl⟩

/-- The managers hold what they held, in other registers perhaps. -/
def Rotated (s t : Debugger K) : Prop :=
  ∃ os helpers, t = s.withHelpers os helpers ∧ helpers.keys = s.hardwareBpHelpers.keys ∧
    ∀ threadId after, helpers.get? threadId = some after →
      ∃ before, s.hardwareBpHelpers.get? threadId = some before ∧
        after.breakpointCount = before.breakpointCount ∧ after.held.Perm before.held

theorem Rotated.refl (s : Debugger K) : Rotated s s :=
  ⟨s.world.os, s.hardwareBpHelpers, rfl, rfl, fun _ after found => ⟨after, found, rfl, .refl _⟩⟩

theorem Rotated.trans (first : Rotated s r) (second : Rotated r t) : Rotated s t := by
  obtain ⟨_, _, rfl, keys, known⟩ := first
  obtain ⟨os, helpers, rfl, keys', known'⟩ := second
  refine ⟨os, helpers, rfl, keys'.trans keys, ?_⟩
  intro threadId after found
  obtain ⟨middle, there, count, held⟩ := known' threadId after found
  obtain ⟨before, earlier, count', held'⟩ := known threadId middle there
  exact ⟨before, earlier, count.trans count', held.trans held'⟩

theorem ReadyToMigrate.rotated (ready : ReadyToMigrate s) (rotated : Rotated s t) :
    ReadyToMigrate t := by
  obtain ⟨os, helpers, rfl, keys, known⟩ := rotated
  refine ⟨?_, ?_, ?_, ready.valid⟩
  · intro thread member live
    exact keys.symm ▸ ready.managed thread member live
  · intro after member
    obtain ⟨threadId, found⟩ := Dict.mem_values.mp member
    obtain ⟨before, there, count, held⟩ := known threadId after found
    rw [count, held.length_eq]
    exact ready.counted before (Dict.mem_values.mpr ⟨threadId, there⟩)
  · intro after member bp enabled
    obtain ⟨threadId, found⟩ := Dict.mem_values.mp member
    obtain ⟨before, there, _, held⟩ := known threadId after found
    exact (ready.once before (Dict.mem_values.mpr ⟨threadId, there⟩) bp enabled).perm held

/-- A step that changes the manager of one thread -/
theorem rotated_of_changes (found : s.hardwareBpHelpers.get? threadId = some before) {os : K}
    {helpers : Dict Int HardwareBreakpointManager} (keys : helpers.keys = s.hardwareBpHelpers.keys)
    (own : helpers.get? threadId = some after)
    (others : ∀ other, other ≠ threadId → helpers.get? other = s.hardwareBpHelpers.get? other)
    (count : after.breakpointCount = before.breakpointCount)
    (held : after.held.Perm before.held) : Rotated s (s.withHelpers os helpers) := by
  refine ⟨os, helpers, rfl, keys, ?_⟩
  intro other last there
  by_cases same : other = threadId
  · rw [same, own] at there
    cases there
    exact ⟨before, same ▸ found, count, held⟩
  · exact ⟨last, (others other same) ▸ there, rfl, .refl _⟩

/-- **To remove a breakpoint and to install it again** succeeds, and leaves it in the manager. -/
theorem reinstallOn_returns (reads : ReadsUserArea k) (ready : ReadyToMigrate s)
    (enabled : bp ∈ s.enabledHardware) (listed : threadId ∈ s.hardwareBpHelpers.keys) :
    ∃ t, (reinstallOn k bp threadId).run s = .ok () t ∧ Rotated s t := by
  obtain ⟨before, found⟩ := Dict.mem_keys.mp listed
  have member : before ∈ s.hardwareBpHelpers.values := Dict.mem_values.mpr ⟨threadId, found⟩
  have once := ready.once before member bp enabled
  have counted := ready.counted before member
  have filled : 0 < before.held.length := List.length_pos_of_mem once.mem
  have few := held_length_le before
  obtain ⟨r, removed⟩ := removeBreakpoint_returns reads found (counted ▸ filled) once.mem
  obtain ⟨os, helper, f, there, ⟨fewer, own, equal, split⟩, changed⟩ := removeBreakpoint_ok removed
  cases there.symm.trans found
  obtain rfl := once.eq (split.mem_iff.mpr List.mem_cons_self) equal
  have length := split.length_eq
  rw [List.length_cons] at length
  obtain ⟨condition, size⟩ := ready.valid _ enabled
  have between : r.hardwareBpHelpers.get? threadId = some (f before) := by
    rw [changed, Debugger.withHelpers, Dict.get?_modify, if_pos rfl, found, Option.map_some]
  have same : r.objects = s.objects := by
    rw [changed]
    rfl
  have installable : Installable (f before) (r.objects own) := by
    constructor
    · rw [fewer, counted]
      omega
    · omega
    · rwa [same]
    · rwa [same]
  obtain ⟨t, installed⟩ := installBreakpoint_returns reads between installable
  obtain ⟨os', middle, g, there', ⟨_, more, back⟩, changed'⟩ := installBreakpoint_ok installed
  cases there'.symm.trans between
  refine ⟨t, ?_, ?_⟩
  · rw [reinstallOn, EStateM.run_bind, removed]
    exact installed
  · have last : ((s.hardwareBpHelpers.modify threadId f).modify threadId g).get? threadId =
        some (g (f before)) := by
      rw [Dict.get?_modify, if_pos rfl, Dict.get?_modify, if_pos rfl, found]
      rfl
    have rotated : Rotated s (s.withHelpers os'
        ((s.hardwareBpHelpers.modify threadId f).modify threadId g)) := by
      apply rotated_of_changes found _ last
      · intro other different
        rw [Dict.get?_modify, if_neg different, Dict.get?_modify, if_neg different]
      · rw [more, fewer, counted]
        omega
      · exact back.trans split.symm
      · rw [Dict.keys_modify, Dict.keys_modify]
    rw [changed', changed]
    exact rotated

/-! ### All of them -/

theorem Rotated.enabledHardware (rotated : Rotated s t) :
    t.enabledHardware = s.enabledHardware := by
  obtain ⟨_, _, rfl, _, _⟩ := rotated
  rfl

theorem Rotated.keys (rotated : Rotated s t) :
    t.hardwareBpHelpers.keys = s.hardwareBpHelpers.keys := by
  obtain ⟨_, _, rfl, keys, _⟩ := rotated
  exact keys

theorem reinstall_returns (reads : ReadsUserArea k) (ready : ReadyToMigrate s)
    (member : bp ∈ s.breakpoints.values) :
    ∃ t, (reinstall k bp).run s = .ok () t ∧ Rotated s t := by
  rw [reinstall, EStateM.run_bind, EStateM.run_get]
  by_cases enabled : (s.objects bp).hardware = true ∧ (s.objects bp).enabled = true
  · have listed : bp ∈ s.enabledHardware := List.mem_filter.mpr ⟨member, by simp [enabled]⟩
    simp only [enabled, and_self, if_true]
    apply forM_returns (P := Rotated s) _ (.refl s)
    intro threadId key r rotated
    have still : bp ∈ r.enabledHardware := rotated.enabledHardware ▸ listed
    obtain ⟨t, returned, next⟩ :=
      reinstallOn_returns reads (ready.rotated rotated) still (rotated.keys ▸ key)
    exact ⟨t, returned, rotated.trans next⟩
  · simp only [enabled, if_false]
    exact ⟨s, rfl, .refl s⟩

/-- The last loop of `migrate_from_gdb` -/
theorem reinstallAll_returns (reads : ReadsUserArea k) (ready : ReadyToMigrate s) :
    ∃ t, (reinstallAll k).run s = .ok () t ∧ Rotated s t := by
  rw [reinstallAll, EStateM.run_bind, EStateM.run_get]
  apply forM_returns (P := Rotated s) _ (.refl s)
  intro bp member r rotated
  have still : bp ∈ r.breakpoints.values := by
    obtain ⟨_, _, rfl, _, _⟩ := rotated
    exact member
  obtain ⟨t, returned, next⟩ := reinstall_returns reads (ready.rotated rotated) still
  exact ⟨t, returned, rotated.trans next⟩

/-! ### The tasks -/

theorem checkTask_known {tid : Int} (known : s.getThreadById tid ≠ none) :
    (checkTask k tid).run s = .ok () s := by
  rw [checkTask, EStateM.run_bind, EStateM.run_get]
  simp only [known, if_false]
  rfl

theorem checkTask_new {tid : Int} (unknown : s.getThreadById tid = none) :
    (checkTask k tid).run s = .error (argumentError 3) s := by
  rw [checkTask, EStateM.run_bind, EStateM.run_get]
  simp only [unknown, if_true]
  rfl

/-- The loop over the tasks ends if all of them are registered, and raises otherwise. -/
theorem checkTasks_run (tids : List Int) :
    (tids.forM (checkTask k)).run s =
      if ∀ tid ∈ tids, s.getThreadById tid ≠ none then .ok () s
      else .error (argumentError 3) s := by
  induction tids with
  | nil => rfl
  | cons tid rest ih =>
      have unfolded : (tid :: rest).forM (checkTask k) =
          checkTask k tid >>= fun _ => rest.forM (checkTask k) := rfl
      rw [unfolded, EStateM.run_bind]
      by_cases known : s.getThreadById tid = none
      · have some : ¬ ∀ other ∈ tid :: rest, s.getThreadById other ≠ none := fun all =>
          all tid List.mem_cons_self known
        rw [checkTask_new known, if_neg some]
      · rw [checkTask_known known]
        simp only [ih, List.forall_mem_cons, ne_eq, known, not_false_iff, true_and]

theorem checkForNewThreads_run (tasksOf : Int → Option (List Int)) (pid : Int) :
    (checkForNewThreads k tasksOf pid).run s =
      if ∀ tid ∈ (tasksOf pid).getD [], s.getThreadById tid ≠ none then .ok () s
      else .error (argumentError 3) s := by
  unfold checkForNewThreads
  cases tasksOf pid with
  | none => rfl
  | some tids => exact checkTasks_run tids

theorem migrateFromGdb_run (k : Kernel K) (attach : K → Int → K)
    (tasksOf : Int → Option (List Int)) (s : Debugger K) :
    ∃ g w, (migrateFromGdb k attach tasksOf).run s =
      if ∀ tid ∈ (tasksOf s.processId).getD [], s.getThreadById tid ≠ none then
        (call (reinstallAll k)).run (s.withLib g w)
      else .error (argumentError 3) (s.withLib g w) := by
  obtain ⟨g, w, attached⟩ : ∃ g w, (call (callLib fun g w =>
      ((), ptraceReattachFromGdb k attach g w))).run s = .ok () (s.withLib g w) := ⟨_, _, rfl⟩
  have tasks := checkForNewThreads_run (k := k) (s := s.withLib g w) tasksOf s.processId
  have same : ∀ tid, (s.withLib g w).getThreadById tid = s.getThreadById tid := fun _ => rfl
  simp only [same] at tasks
  refine ⟨g, w, ?_⟩
  rw [migrateFromGdb, EStateM.run_bind, attached]
  simp only [EStateM.run_bind, EStateM.run_get]
  have pid : (s.withLib g w).processId = s.processId := rfl
  rw [pid, tasks]
  by_cases known : ∀ tid ∈ (tasksOf s.processId).getD [], s.getThreadById tid ≠ none
  · rw [if_pos known, if_pos known]
  · rw [if_neg known, if_neg known]

/-- **Back from GDB the managers hold every enabled hardware breakpoint once, exactly if no task
is to be registered.** -/
theorem migration_resynchronises_iff (reads : ReadsUserArea k) (ready : ReadyToMigrate s)
    (attach : K → Int → K) (tasksOf : Int → Option (List Int)) :
    (∃ t, (migrateFromGdb k attach tasksOf).run s = .ok () t ∧
        Resynchronises s t ((tasksOf s.processId).getD [])) ↔
      ∀ tid ∈ (tasksOf s.processId).getD [], s.getThreadById tid ≠ none := by
  obtain ⟨g, w, run⟩ := migrateFromGdb_run k attach tasksOf s
  rw [run]
  constructor
  · rintro ⟨t, returned, _⟩
    by_contra unknown
    rw [if_neg unknown] at returned
    cases returned
  · intro known
    have readyNow : ReadyToMigrate (s.withLib g w) :=
      ⟨ready.managed, ready.counted, ready.once, ready.valid⟩
    obtain ⟨t, returned, rotated⟩ := reinstallAll_returns reads readyNow
    have last : (call (reinstallAll k)).run (s.withLib g w) = .ok () t := by
      rw [run_call, returned]
    have none : ((tasksOf s.processId).getD []).filter (fun tid => s.getThreadById tid = none) =
        [] := by
      rw [List.filter_eq_nil_iff]
      intro tid member
      simp [known tid member]
    have after := readyNow.rotated rotated
    have threads : t.threads = s.threads := by
      obtain ⟨_, _, rfl, _, _⟩ := rotated
      rfl
    refine ⟨t, by rw [if_pos known, last], ⟨[], ?_, none.symm⟩, rotated.enabledHardware, ?_⟩
    · rw [threads, List.append_nil]
    · intro thread member live
      obtain ⟨helper, found⟩ := Dict.mem_keys.mp (after.managed thread member live)
      refine ⟨helper, found, ?_⟩
      intro bp enabled
      exact after.once helper (Dict.mem_values.mpr ⟨_, found⟩) bp enabled

/-! ### A thread created while GDB was attached -/

instance (s : Debugger K) : Decidable (ReadyToMigrate s) :=
  decidable_of_iff
    ((∀ thread ∈ s.threads, thread.dead = false →
        thread.threadId ∈ s.hardwareBpHelpers.keys) ∧
      (∀ helper ∈ s.hardwareBpHelpers.values, helper.breakpointCount = helper.held.length) ∧
      (∀ helper ∈ s.hardwareBpHelpers.values, ∀ bp ∈ s.enabledHardware,
        helper.held.filter (fun other => s.objects other = s.objects bp) = [bp]) ∧
      ∀ bp ∈ s.enabledHardware, (ctrlCondVal (s.objects bp).condition).isSome ∧
        (ctrlLenVal (s.objects bp).length).isSome)
    ⟨fun ready => ⟨ready.1, ready.2.1, ready.2.2.1, ready.2.2.2⟩,
      fun ready => ⟨ready.managed, ready.counted, ready.once, ready.valid⟩⟩

theorem scripted_readsUserArea : ReadsUserArea scripted := fun _ _ _ => rfl

/-- A thread with a hardware breakpoint -/
theorem oneThread_ready :
    ∃ s, (debugging scripted idle).run (.initial (.nops { registers := fun _ => none }))
        [.registerNewThread 1, .breakpoint 0x1000 "" true (some "x") 1 none] = some s ∧
      (s.getThreadById 1 ≠ none ∧ s.getThreadById 2 = none) ∧ ReadyToMigrate s :=
  Machine.exists_of_run (by decide +kernel)

/-- No thread has come into being. -/
theorem oneThread_resynchronises :
    ∃ s, ReadyToMigrate s ∧
      ((∃ t, (migrateFromGdb scripted (fun os _ => os) fun _ => some [1]).run s = .ok () t ∧
          Resynchronises s t ((some [1]).getD [])) ↔
        ∀ tid ∈ (some [1]).getD [], s.getThreadById tid ≠ none) := by
  obtain ⟨s, _, _, ready⟩ := oneThread_ready
  exact ⟨s, ready, migration_resynchronises_iff scripted_readsUserArea ready _ fun _ => some [1]⟩

/-- A second thread has: an exception is raised, and it is not registered. -/
theorem newThread_raises :
    ∃ s, (debugging scripted idle).run (.initial (.nops { registers := fun _ => none }))
        [.registerNewThread 1, .breakpoint 0x1000 "" true (some "x") 1 none] = some s ∧
      ReadyToMigrate s ∧
      (∃ t, (migrateFromGdb scripted (fun os _ => os) fun _ => some [1, 2]).run s =
        .error (argumentError 3) t ∧ t.threads = s.threads) ∧
      ¬ ∃ t, (migrateFromGdb scripted (fun os _ => os) fun _ => some [1, 2]).run s = .ok () t ∧
        Resynchronises s t [1, 2] := by
  obtain ⟨s, reached, ⟨_, unknown⟩, ready⟩ := oneThread_ready
  obtain ⟨g, w, run⟩ :=
    migrateFromGdb_run scripted (fun os _ => os) (fun _ => some [1, 2]) s
  have some : ¬ ∀ tid ∈ (Option.some [1, 2]).getD [], s.getThreadById tid ≠ none := fun all =>
    all 2 (by decide) unknown
  rw [if_neg some] at run
  refine ⟨s, reached, ready, ⟨s.withLib g w, run, rfl⟩, ?_⟩
  rintro ⟨t, returned, _⟩
  rw [run] at returned
  cases returned

end Libdebug.Ptrace.GdbReturn
