import Libdebug.Foundation.Descriptors
import Libdebug.Utils.PipeManager
import Mathlib.Tactic.SplitIfs

/-!
The standard streams of a program that `PtraceInterface.run` starts. The parent opens a pipe and
two pseudo-terminals, the child puts its ends of them in the place of its standard streams and
closes the rest, and the parent closes the ends of the child.

The six descriptors are the lowest that are free. The child closes its own ends by their old
numbers after it has copied them, so that a standard stream that was free in the parent is closed
again.
-/

namespace Libdebug.Ptrace.StandardStreams

open Libdebug.Foundation Libdebug.Foundation.Descriptors Libdebug.Utils

/-- What a descriptor refers to: an end of the streams of this run, or something else. -/
inductive File where
  | stdinRead | stdinWrite | stdoutRead | stdoutWrite | stderrRead | stderrWrite
  | foreign (file : Nat)
  deriving DecidableEq, Repr

abbrev Table := Descriptors File

/-- The descriptors that `run` opens -/
structure Streams where
  stdinRead : Nat
  stdinWrite : Nat
  stdoutRead : Nat
  stdoutWrite : Nat
  stderrRead : Nat
  stderrWrite : Nat
  deriving DecidableEq

/-- `os.pipe()`, and `pty.openpty()` twice -/
def openStreams (table : Table) : Streams × Table :=
  let stdinRead := openFile table .stdinRead
  let stdinWrite := openFile stdinRead.2 .stdinWrite
  let stdoutRead := openFile stdinWrite.2 .stdoutRead
  let stdoutWrite := openFile stdoutRead.2 .stdoutWrite
  let stderrRead := openFile stdoutWrite.2 .stderrRead
  let stderrWrite := openFile stderrRead.2 .stderrWrite
  (⟨stdinRead.1, stdinWrite.1, stdoutRead.1, stdoutWrite.1, stderrRead.1, stderrWrite.1⟩,
    stderrWrite.2)

/-! ### The child -/

inductive FileAction where
  /-- `POSIX_SPAWN_CLOSE` -/
  | close (fd : Nat)
  /-- `POSIX_SPAWN_DUP2` -/
  | dup2 (fd copy : Nat)
  deriving DecidableEq

def FileAction.perform (table : Table) : FileAction → Option Table
  | .close fd => Descriptors.close table fd
  | .dup2 fd copy => Descriptors.dup2 table fd copy

/-- The actions that `run` asks for -/
def fileActions (s : Streams) : List FileAction :=
  [.close s.stdinWrite, .close s.stdoutRead, .close s.stderrRead,
    .dup2 s.stdinRead 0, .dup2 s.stdoutWrite 1, .dup2 s.stderrWrite 2,
    .close s.stdinRead, .close s.stdoutWrite, .close s.stderrWrite]

/-- The descriptors of the child when its program is executed, if no action fails -/
def posixSpawn (table : Table) (actions : List FileAction) : Option Table :=
  (actions.foldlM FileAction.perform table).map exec

/-! ### The parent -/

/-- `_setup_pipe`, if nothing fails -/
def setupPipe (s : Streams) (table : Table) : Option (PipeManager × Table) := do
  let table ← close table s.stdinRead
  let table ← close table s.stdoutWrite
  let table ← close table s.stderrWrite
  pure (⟨s.stdinWrite, s.stdoutRead, s.stderrRead⟩, table)

/-- `PipeManager.close` -/
def closePipes (manager : PipeManager) (table : Table) : Option Table := do
  let table ← close table manager.stdinWrite
  let table ← close table manager.stdoutRead
  close table manager.stderrRead

/-- What `run` leaves behind: the program, which `jumpstart` executes, and the parent -/
structure Started where
  program : Table
  manager : PipeManager
  parent : Table

def run (table : Table) : Option Started := do
  let (streams, table) := openStreams table
  let jumpstart ← posixSpawn table (fileActions streams)
  let (manager, parent) ← setupPipe streams table
  pure ⟨exec jumpstart, manager, parent⟩

/-! ### The six descriptors -/

section Opened

variable {table : Table}

/-- The descriptors are given out in ascending order. -/
structure Ascending (s : Streams) : Prop where
  stdin : s.stdinRead < s.stdinWrite
  toStdout : s.stdinWrite < s.stdoutRead
  stdout : s.stdoutRead < s.stdoutWrite
  toStderr : s.stdoutWrite < s.stderrRead
  stderr : s.stderrRead < s.stderrWrite

/-- The descriptors, in the order in which they are given out -/
def Streams.numbers (s : Streams) : List Nat :=
  [s.stdinRead, s.stdinWrite, s.stdoutRead, s.stdoutWrite, s.stderrRead, s.stderrWrite]

/-- The streams are open in a table, beside what is in the table before. -/
structure Opened (before : Table) (s : Streams) (table : Table) : Prop extends Ascending s where
  stdinRead : table.get? s.stdinRead = some ⟨.stdinRead, false⟩
  stdinWrite : table.get? s.stdinWrite = some ⟨.stdinWrite, false⟩
  stdoutRead : table.get? s.stdoutRead = some ⟨.stdoutRead, false⟩
  stdoutWrite : table.get? s.stdoutWrite = some ⟨.stdoutWrite, false⟩
  stderrRead : table.get? s.stderrRead = some ⟨.stderrRead, false⟩
  stderrWrite : table.get? s.stderrWrite = some ⟨.stderrWrite, false⟩
  others : ∀ fd ∉ s.numbers, table.get? fd = before.get? fd
  lowest : s.stdinRead = lowest before
  free : ∀ fd ∈ s.numbers, before.get? fd = none

theorem exists_opened : ∃ s opened, openStreams table = (s, opened) ∧ Opened table s opened := by
  obtain ⟨stdinRead, one, opens1⟩ := exists_opensAt table .stdinRead
  obtain ⟨stdinWrite, two, opens2⟩ := exists_opensAt one .stdinWrite
  obtain ⟨stdoutRead, three, opens3⟩ := exists_opensAt two .stdoutRead
  obtain ⟨stdoutWrite, four, opens4⟩ := exists_opensAt three .stdoutWrite
  obtain ⟨stderrRead, five, opens5⟩ := exists_opensAt four .stderrRead
  obtain ⟨stderrWrite, six, opens6⟩ := exists_opensAt five .stderrWrite
  refine ⟨⟨stdinRead, stdinWrite, stdoutRead, stdoutWrite, stderrRead, stderrWrite⟩, six, ?_, ?_⟩
  · simp only [openStreams, opens1.eq, opens2.eq, opens3.eq, opens4.eq, opens5.eq, opens6.eq]
  · have ⟨first, free2⟩ := opens1.higher opens2.free
    have ⟨second, free3⟩ := opens2.higher opens3.free
    have ⟨third, free4⟩ := opens3.higher opens4.free
    have ⟨fourth, free5⟩ := opens4.higher opens5.free
    have ⟨fifth, free6⟩ := opens5.higher opens6.free
    have down2 := fun fd (free : one.get? fd = none) => (opens1.higher free).2
    have down3 := fun fd (free : two.get? fd = none) => down2 fd (opens2.higher free).2
    have down4 := fun fd (free : three.get? fd = none) => down3 fd (opens3.higher free).2
    have down5 := fun fd (free : four.get? fd = none) => down4 fd (opens4.higher free).2
    have read1 : six.get? stdinRead = some ⟨.stdinRead, false⟩ := by
      rw [opens6.kept (by omega), opens5.kept (by omega), opens4.kept (by omega),
        opens3.kept (by omega), opens2.kept first, opens1.self]
    have read2 : six.get? stdinWrite = some ⟨.stdinWrite, false⟩ := by
      rw [opens6.kept (by omega), opens5.kept (by omega), opens4.kept (by omega),
        opens3.kept second, opens2.self]
    have read3 : six.get? stdoutRead = some ⟨.stdoutRead, false⟩ := by
      rw [opens6.kept (by omega), opens5.kept (by omega), opens4.kept third, opens3.self]
    have read4 : six.get? stdoutWrite = some ⟨.stdoutWrite, false⟩ := by
      rw [opens6.kept (by omega), opens5.kept fourth, opens4.self]
    have read5 : six.get? stderrRead = some ⟨.stderrRead, false⟩ := by
      rw [opens6.kept fifth, opens5.self]
    refine ⟨⟨first, second, third, fourth, fifth⟩, read1, read2, read3, read4, read5, opens6.self,
      fun fd other => ?_, (congrArg Prod.fst opens1.eq).symm, ?_⟩
    · simp only [Streams.numbers, List.mem_cons, List.not_mem_nil, or_false, not_or] at other
      obtain ⟨none1, none2, none3, none4, none5, none6⟩ := other
      rw [opens6.found, if_neg none6, opens5.found, if_neg none5, opens4.found, if_neg none4,
        opens3.found, if_neg none3, opens2.found, if_neg none2, opens1.found, if_neg none1]
    · simp only [Streams.numbers, List.forall_mem_cons]
      exact ⟨opens1.free, free2, down2 _ free3, down3 _ free4, down4 _ free5, down5 _ free6,
        List.forall_mem_nil _⟩

/-! ### The program -/

variable {s : Streams} {opened : Table}

/-- What `run` is to put at a descriptor of the program -/
def standard : Nat → Option (Descriptor File)
  | 0 => some ⟨.stdinRead, true⟩
  | 1 => some ⟨.stdoutWrite, true⟩
  | 2 => some ⟨.stderrWrite, true⟩
  | _ => none

/-- The copies are put in place before the child closes its own ends by their numbers, of which
the first may be that of a standard stream. -/
theorem exists_standard {fd : Nat} (below : fd < 3) :
    ∃ descriptor, standard fd = some descriptor := by
  match fd with
  | 0 | 1 | 2 => exact ⟨_, rfl⟩

/-- All standard streams are in place unless the lowest free descriptor is one of them. -/
theorem standard_iff {program : Table} (found : ∀ fd, program.get? fd =
      if fd = lowest table then none
      else (standard fd).or ((table.get? fd).filter (·.inheritable))) :
    (∀ fd < 3, program.get? fd = standard fd) ↔ ∀ fd < 3, table.get? fd ≠ none := by
  obtain ⟨free, used⟩ := lowest_spec table
  constructor
  · intro inPlace fd below isFree
    have lower : lowest table < 3 :=
      Nat.lt_of_le_of_lt (Nat.le_of_not_lt fun lower => used fd lower isFree) below
    obtain ⟨descriptor, is⟩ := exists_standard lower
    have missing := found (lowest table)
    rw [if_pos rfl, inPlace _ lower, is] at missing
    cases missing
  · intro allUsed fd below
    have other : fd ≠ lowest table := fun same => allUsed fd below (same ▸ free)
    obtain ⟨descriptor, is⟩ := exists_standard below
    rw [found, if_neg other, is, Option.some_or]

theorem standard_or (fd : Nat) (rest : Option (Descriptor File)) :
    (if fd = 2 then some ⟨.stderrWrite, true⟩ else if fd = 1 then some ⟨.stdoutWrite, true⟩
      else if fd = 0 then some ⟨.stdinRead, true⟩ else rest) = (standard fd).or rest := by
  match fd with
  | 0 | 1 | 2 => rfl
  | fd + 3 => simp [standard]

theorem exists_performed (isOpen : Opened table s opened) : ∃ child,
    (fileActions s).foldlM FileAction.perform opened = some child ∧ ∀ fd, child.get? fd =
      if fd = s.stderrWrite then none else if fd = s.stdoutWrite then none
      else if fd = s.stdinRead then none
      else (standard fd).or <|
        if fd = s.stderrRead then none else if fd = s.stdoutRead then none
        else if fd = s.stdinWrite then none else opened.get? fd := by
  have ⟨first, second, third, fourth, fifth⟩ := isOpen.toAscending
  -- the ends of the parent are closed
  obtain ⟨one, step1, found1⟩ : ∃ one, close opened s.stdinWrite = some one ∧ _ :=
    exists_close (by simp [isOpen.stdinWrite])
  obtain ⟨two, step2, found2⟩ : ∃ two, close one s.stdoutRead = some two ∧ _ :=
    exists_close (by rw [found1, if_neg (by omega)]; simp [isOpen.stdoutRead])
  obtain ⟨three, step3, found3⟩ : ∃ three, close two s.stderrRead = some three ∧ _ :=
    exists_close (by
      rw [found2, if_neg (by omega), found1, if_neg (by omega)]; simp [isOpen.stderrRead])
  have own (fd : Nat) (isOwn : fd ≠ s.stdinWrite ∧ fd ≠ s.stdoutRead ∧ fd ≠ s.stderrRead) :
      three.get? fd = opened.get? fd := by
    rw [found3, if_neg isOwn.2.2, found2, if_neg isOwn.2.1, found1, if_neg isOwn.1]
  -- those of the child take the place of the standard streams
  obtain ⟨four, step4, found4⟩ := exists_dup2
    ((own s.stdinRead (by omega)).trans isOpen.stdinRead) 0
  obtain ⟨five, step5, found5⟩ := exists_dup2 ((by
    rw [found4, if_neg (by omega), own _ (by omega), isOpen.stdoutWrite]) :
      four.get? s.stdoutWrite = some ⟨.stdoutWrite, false⟩) 1
  obtain ⟨six, step6, found6⟩ := exists_dup2 ((by
    rw [found5, if_neg (by omega), found4, if_neg (by omega), own _ (by omega),
      isOpen.stderrWrite]) : five.get? s.stderrWrite = some ⟨.stderrWrite, false⟩) 2
  -- and are closed
  obtain ⟨seven, step7, found7⟩ : ∃ seven, close six s.stdinRead = some seven ∧ _ :=
    exists_close (by
      rw [found6, found5, found4, own _ (by omega), isOpen.stdinRead]
      split_ifs <;> simp)
  obtain ⟨eight, step8, found8⟩ : ∃ eight, close seven s.stdoutWrite = some eight ∧ _ :=
    exists_close (by
      rw [found7, if_neg (by omega), found6, if_neg (by omega), found5, if_neg (by omega), found4,
        if_neg (by omega), own _ (by omega), isOpen.stdoutWrite]
      simp)
  obtain ⟨nine, step9, found9⟩ : ∃ nine, close eight s.stderrWrite = some nine ∧ _ :=
    exists_close (by
      rw [found8, if_neg (by omega), found7, if_neg (by omega), found6, if_neg (by omega), found5,
        if_neg (by omega), found4, if_neg (by omega), own _ (by omega), isOpen.stderrWrite]
      simp)
  refine ⟨nine, ?_, fun fd => ?_⟩
  · simp [fileActions, FileAction.perform, step1, step2, step3, step4, step5, step6, step7, step8,
      step9]
  · rw [found9, found8, found7, found6, found5, found4, standard_or, found3, found2, found1]

/-- The program finds its standard streams, but for the lowest one that was free. -/
theorem exists_spawned (isOpen : Opened table s opened) : ∃ jumpstart,
    posixSpawn opened (fileActions s) = some jumpstart ∧ ∀ fd, (exec jumpstart).get? fd =
      if fd = lowest table then none
      else (standard fd).or ((table.get? fd).filter (·.inheritable)) := by
  have ⟨first, second, third, fourth, fifth⟩ := isOpen.toAscending
  obtain ⟨child, performed, found⟩ := exists_performed isOpen
  refine ⟨exec child, by rw [posixSpawn, performed, Option.map_some], fun fd => ?_⟩
  rw [get?_exec, get?_exec, found, ← isOpen.lowest]
  by_cases missing : fd = s.stdinRead
  · simp [missing]
  rw [if_neg missing, if_neg missing]
  match fd with
  | 0 | 1 | 2 => rw [if_neg (by omega), if_neg (by omega)]; rfl
  | fd + 3 =>
      have none : standard (fd + 3) = none := rfl
      rw [none, Option.none_or, Option.none_or]
      by_cases own : fd + 3 ∈ s.numbers
      · have free := isOpen.free _ own
        simp only [Streams.numbers, List.mem_cons, List.not_mem_nil, or_false, missing,
          false_or] at own
        rw [free]
        rcases own with same | same | same | same | same <;> simp [same]
      · have kept := isOpen.others _ own
        simp only [Streams.numbers, List.mem_cons, List.not_mem_nil, or_false, not_or] at own
        simp [own, kept]

/-! ### The parent -/

/-- The parent has its ends of the streams, beside what it had before. -/
def Holds (before : Table) (manager : PipeManager) (parent : Table) : Prop :=
  ∀ fd, parent.get? fd =
    if fd = manager.stdinWrite then some ⟨.stdinWrite, false⟩
    else if fd = manager.stdoutRead then some ⟨.stdoutRead, false⟩
    else if fd = manager.stderrRead then some ⟨.stderrRead, false⟩
    else before.get? fd

def Streams.manager (s : Streams) : PipeManager := ⟨s.stdinWrite, s.stdoutRead, s.stderrRead⟩

theorem exists_setupPipe (isOpen : Opened table s opened) : ∃ parent,
    setupPipe s opened = some (s.manager, parent) ∧ Holds table s.manager parent := by
  have ⟨first, second, third, fourth, fifth⟩ := isOpen.toAscending
  obtain ⟨one, step1, found1⟩ : ∃ one, close opened s.stdinRead = some one ∧ _ :=
    exists_close (by simp [isOpen.stdinRead])
  obtain ⟨two, step2, found2⟩ : ∃ two, close one s.stdoutWrite = some two ∧ _ :=
    exists_close (by rw [found1, if_neg (by omega), isOpen.stdoutWrite]; simp)
  obtain ⟨three, step3, found3⟩ : ∃ three, close two s.stderrWrite = some three ∧ _ :=
    exists_close (by
      rw [found2, if_neg (by omega), found1, if_neg (by omega), isOpen.stderrWrite]
      simp)
  refine ⟨three, by simp [setupPipe, step1, step2, step3, Streams.manager], fun fd => ?_⟩
  rw [found3, found2, found1]
  by_cases own : fd ∈ s.numbers
  · have free := isOpen.free _ own
    simp only [Streams.numbers, List.mem_cons, List.not_mem_nil, or_false] at own
    dsimp only [Streams.manager]
    rcases own with rfl | rfl | rfl | rfl | rfl | rfl <;>
      simp (disch := omega) only [if_neg, if_true, free, isOpen.stdinWrite, isOpen.stdoutRead,
        isOpen.stderrRead]
  · have kept := isOpen.others _ own
    simp only [Streams.numbers, List.mem_cons, List.not_mem_nil, or_false, not_or] at own
    simp [own, kept, Streams.manager]

theorem Holds.closed {manager : PipeManager} {parent : Table} (holds : Holds table manager parent)
    (distinct : [manager.stdinWrite, manager.stdoutRead, manager.stderrRead].Nodup)
    (free : ∀ fd ∈ [manager.stdinWrite, manager.stdoutRead, manager.stderrRead],
      table.get? fd = none) :
    ∃ closed, closePipes manager parent = some closed ∧
      ∀ fd, closed.get? fd = table.get? fd := by
  obtain ⟨stdinFree, stdoutFree, stderrFree⟩ : table.get? manager.stdinWrite = none ∧
      table.get? manager.stdoutRead = none ∧ table.get? manager.stderrRead = none := by
    simpa using free
  obtain ⟨⟨apart12, apart13⟩, apart23⟩ :
      (manager.stdinWrite ≠ manager.stdoutRead ∧ manager.stdinWrite ≠ manager.stderrRead) ∧
        manager.stdoutRead ≠ manager.stderrRead := by
    simpa using distinct
  obtain ⟨one, step1, found1⟩ : ∃ one, close parent manager.stdinWrite = some one ∧ _ :=
    exists_close (by simp [holds _])
  obtain ⟨two, step2, found2⟩ : ∃ two, close one manager.stdoutRead = some two ∧ _ :=
    exists_close (by simp [found1, holds _, apart12.symm])
  obtain ⟨three, step3, found3⟩ : ∃ three, close two manager.stderrRead = some three ∧ _ :=
    exists_close (by simp [found2, found1, holds _, apart13.symm, apart23.symm])
  refine ⟨three, by simp [closePipes, step1, step2, step3], fun fd => ?_⟩
  rw [found3, found2, found1, holds]
  split_ifs with stderr stdout stdin
  · rw [stderr, stderrFree]
  · rw [stdout, stdoutFree]
  · rw [stdin, stdinFree]
  · rfl

end Opened

/-- The standard streams of a program are the ends of the pipes, except for the lowest one that
the parent has closed: none at all if and only if the parent has none closed. Nothing else of
the pipes reaches the program, the parent is left with its own ends, none of which has the number
that the pipe manager takes for no pipe, and closing these leaves it as it was before. -/
theorem run_streams (table : Table) : ∃ started, run table = some started ∧
    (∀ fd, started.program.get? fd =
      if fd = lowest table then none
      else (standard fd).or ((table.get? fd).filter (·.inheritable))) ∧
    ((∀ fd < 3, started.program.get? fd = standard fd) ↔ ∀ fd < 3, table.get? fd ≠ none) ∧
    Holds table started.manager started.parent ∧
    (0 < started.manager.stdinWrite ∧ 0 < started.manager.stdoutRead ∧
      0 < started.manager.stderrRead) ∧
    ∃ closed, closePipes started.manager started.parent = some closed ∧
      ∀ fd, closed.get? fd = table.get? fd := by
  obtain ⟨s, opened, opens, isOpen⟩ :
      ∃ s opened, openStreams table = (s, opened) ∧ Opened table s opened := exists_opened
  obtain ⟨jumpstart, spawned, found⟩ := exists_spawned isOpen
  obtain ⟨parent, setup, holds⟩ := exists_setupPipe isOpen
  refine ⟨⟨exec jumpstart, s.manager, parent⟩, ?_, found, standard_iff found, holds, ?_, ?_⟩
  · simp [run, opens, spawned, setup]
  · have ⟨first, second, third, fourth, fifth⟩ := isOpen.toAscending
    dsimp only [Streams.manager]
    omega
  · have ⟨first, second, third, fourth, fifth⟩ := isOpen.toAscending
    refine holds.closed ?_ ?_
    · simp only [Streams.manager, List.nodup_cons, List.mem_cons, List.not_mem_nil, or_false,
        not_or, not_false_iff, List.nodup_nil, and_true]
      omega
    · intro fd own
      refine isOpen.free fd ?_
      simp only [Streams.manager, Streams.numbers, List.mem_cons, List.not_mem_nil, or_false]
        at own ⊢
      omega

-- a parent without standard input
example : (run ((Dict.empty.set 1 ⟨.foreign 1, true⟩).set 2 ⟨.foreign 2, true⟩)).map
      (fun started => [0, 1, 2].map started.program.get?) =
    some [none, some ⟨.stdoutWrite, true⟩, some ⟨.stderrWrite, true⟩] := by decide

end Libdebug.Ptrace.StandardStreams
