import Libdebug.Foundation.Runs
import Libdebug.Ptrace.State

/-!
The table of syscall handlers, which the handlers of the user and the pretty printer share:
`handle_syscall`, `hijack_syscall`, `enable_pretty_print`, `disable_pretty_print` and the
setters of the lists that select what is printed.

A syscall has one entry in the table, for both. Which of the two an entry is for shows in
the callbacks that are set and in `enabled`, and nowhere else.
-/

namespace Libdebug.InternalDebugger

open Libdebug.Foundation Libdebug.Ptrace

/-! ### The functions -/

structure SyscallDefinition where
  name : String
  number : Nat

/-- What depends on the architecture: the definitions of its syscalls, and the function that
`create_hijacker` returns. -/
structure Architecture where
  definitions : List SyscallDefinition
  createHijacker : Nat → List (String × Int) → Callback

/-- The arguments that a hijacker takes -/
def allowedArgs : List String :=
  ["syscall_number", "syscall_arg0", "syscall_arg1", "syscall_arg2", "syscall_arg3",
    "syscall_arg4", "syscall_arg5"]

/-- A syscall as the user gives it -/
inductive SyscallRef where
  | number (number : Nat)
  | name (name : String)
  deriving DecidableEq

/-- What the polling thread is asked to do. -/
inductive HandlerCommand where
  | handleSyscall (handler : SyscallHandler)
  | unhandleSyscall (handler : SyscallHandler)

structure HandlerTable where
  handledSyscalls : Dict Nat SyscallHandler
  syscallsToPprint : Option (List Nat)
  syscallsToNotPprint : Option (List Nat)
  pprintSyscalls : Bool
  /-- the commands put for the polling thread -/
  commands : List HandlerCommand

def HandlerTable.initial : HandlerTable := ⟨.empty, none, none, false, []⟩

section Functions

variable (arch : Architecture)

def resolveSyscallNumber (name : String) : Except PyError Nat :=
  match arch.definitions.find? (·.name = name) with
  | some syscall => .ok syscall.number
  | none => .error (.valueError s!"Syscall \"{name}\" not found")

def resolveSyscallName (number : Nat) : Except PyError String :=
  match arch.definitions.find? (·.number = number) with
  | some syscall => .ok syscall.name
  | none => .error (.valueError s!"Syscall number \"{number}\" not found")

def getAllSyscallNumbers : List Nat := arch.definitions.map (·.number)

def SyscallRef.resolve : SyscallRef → Except PyError Nat
  | .number n => .ok n
  | .name n => resolveSyscallNumber arch n

/-- Whether a callback of the user is set. -/
def hasUserCallback (handler : SyscallHandler) : Bool :=
  handler.onEnterUser.isSome || handler.onExitUser.isSome

/-- Whether a callback of the pretty printer is set. -/
def hasPprintCallback (handler : SyscallHandler) : Bool :=
  handler.onEnterPprint || handler.onExitPprint

namespace HandlerTable

variable (s : HandlerTable)

def updateHandler (number : Nat) (f : SyscallHandler → SyscallHandler) : HandlerTable :=
  { s with handledSyscalls := s.handledSyscalls.modify number f }

def put (command : HandlerCommand) : HandlerTable :=
  { s with commands := s.commands ++ [command] }

def runCommand : HandlerCommand → HandlerTable
  | .handleSyscall handler =>
      { s with handledSyscalls := s.handledSyscalls.set handler.syscallNumber handler }
  | .unhandleSyscall handler =>
      { s with handledSyscalls := s.handledSyscalls.erase handler.syscallNumber }

/-- The polling thread runs the commands, and the caller waits for it. -/
def joinAndCheckStatus : HandlerTable := s.commands.foldl runCommand { s with commands := [] }

/-- What `handle_syscall` and `hijack_syscall` end with: the entry of the syscall gets the
callbacks, or a new one is made. -/
def install (number : Nat) (onEnter onExit : Option Callback) (recursive : Bool) : HandlerTable :=
  match s.handledSyscalls.get? number with
  | some _ =>
      s.updateHandler number fun h =>
        { h with onEnterUser := onEnter, onExitUser := onExit, recursive, enabled := true }
  | none =>
      (s.put (.handleSyscall ⟨number, onEnter, onExit, false, false, recursive, true, 0, false,
        false⟩)).joinAndCheckStatus

/-- Whether the entry of a syscall has a callback of the user, which would be overridden. -/
def overrides (number : Nat) : Bool := (s.handledSyscalls.get? number).any hasUserCallback

/-- `handle_syscall`. To warn that a handler is overridden it resolves the name of the
syscall, and there it may raise. -/
def handleSyscall (syscall : SyscallRef) (onEnter onExit : Option Callback) (recursive : Bool) :
    Except PyError HandlerTable := do
  let number ← syscall.resolve arch
  if s.overrides number then
    let _ ← resolveSyscallName arch number
  return s.install number onEnter onExit recursive

/-- `hijack_syscall`, whose warning has the number of the syscall -/
def hijackSyscall (originalSyscall newSyscall : SyscallRef) (recursive : Bool)
    (kwargs : List (String × Int)) : Except PyError HandlerTable := do
  if ¬ kwargs.all (·.1 ∈ allowedArgs) then
    throw (.valueError "Invalid keyword arguments in syscall hijack")
  let original ← originalSyscall.resolve arch
  let new ← newSyscall.resolve arch
  if original = new then
    throw (.valueError
      "The original syscall and the new syscall must be different during hijacking.")
  return s.install original (some (arch.createHijacker new kwargs)) none recursive

/-- Whether `enable_pretty_print` selects a syscall. An empty list is false in Python, and
stands for all syscalls where it is the list of those to print. -/
def selects (number : Nat) : Bool :=
  let notToPprint := s.syscallsToNotPprint.getD []
  let toPprint :=
    match s.syscallsToPprint with
    | none | some [] => getAllSyscallNumbers arch
    | some (first :: rest) => first :: rest
  number ∉ notToPprint && number ∈ toPprint

/-- A handler for the pretty printer only, disabled since it is not the user's. -/
def pprintHandler (number : Nat) : SyscallHandler :=
  ⟨number, none, none, true, true, false, false, 0, false, false⟩

/-- What `enable_pretty_print` does for one syscall. -/
def enableOne (number : Nat) : HandlerTable :=
  match s.handledSyscalls.get? number with
  | some _ =>
      s.updateHandler number fun h =>
        { h with onEnterPprint := s.selects arch number, onExitPprint := s.selects arch number }
  | none =>
      if s.selects arch number then s.put (.handleSyscall (pprintHandler number)) else s

def enablePrettyPrint : HandlerTable :=
  ((getAllSyscallNumbers arch).foldl (enableOne arch) s).joinAndCheckStatus

/-- What `disable_pretty_print` does for one of the handlers that were installed. -/
def disableOne (handler : SyscallHandler) : HandlerTable :=
  if hasPprintCallback handler then
    if hasUserCallback handler then
      s.updateHandler handler.syscallNumber
        ({ · with onEnterPprint := false, onExitPprint := false })
    else s.put (.unhandleSyscall handler)
  else s

def disablePrettyPrint : HandlerTable :=
  (s.handledSyscalls.values.foldl disableOne s).joinAndCheckStatus

/-- The setter of `Debugger.pprint_syscalls`. -/
def setPprintSyscalls (value : Bool) : HandlerTable :=
  { if value then s.enablePrettyPrint arch else s.disablePrettyPrint with
    pprintSyscalls := value }

/-- What the setters of both lists end with. -/
def refresh : HandlerTable := if s.pprintSyscalls then s.enablePrettyPrint arch else s

/-- The setter of `Debugger.syscalls_to_pprint`. -/
def setSyscallsToPprint (value : Option (List SyscallRef)) : Except PyError HandlerTable := do
  let value ← value.mapM (·.mapM (SyscallRef.resolve arch))
  return { s with syscallsToPprint := value }.refresh arch

/-- The setter of `Debugger.syscalls_to_not_pprint`. -/
def setSyscallsToNotPprint (value : Option (List SyscallRef)) : Except PyError HandlerTable := do
  let value ← value.mapM (·.mapM (SyscallRef.resolve arch))
  return { s with syscallsToNotPprint := value }.refresh arch

end HandlerTable

/-! ### Sequences of calls -/

inductive UserCall where
  | handleSyscall (syscall : SyscallRef) (onEnter onExit : Option Callback) (recursive : Bool)
  | hijackSyscall (originalSyscall newSyscall : SyscallRef) (recursive : Bool)
      (kwargs : List (String × Int))

inductive PprintCall where
  | pprintSyscalls (value : Bool)
  | syscallsToPprint (value : Option (List SyscallRef))
  | syscallsToNotPprint (value : Option (List SyscallRef))

/-- A call that defines a handler of the user, or one about pretty printing. -/
inductive HandlerCall where
  | user (call : UserCall)
  | pprint (call : PprintCall)

def HandlerCall.byUser : HandlerCall → Bool
  | .user _ => true
  | .pprint _ => false

def HandlerTable.call (s : HandlerTable) : HandlerCall → Except PyError HandlerTable
  | .user (.handleSyscall syscall onEnter onExit recursive) =>
      s.handleSyscall arch syscall onEnter onExit recursive
  | .user (.hijackSyscall originalSyscall newSyscall recursive kwargs) =>
      s.hijackSyscall arch originalSyscall newSyscall recursive kwargs
  | .pprint (.pprintSyscalls value) => .ok (s.setPprintSyscalls arch value)
  | .pprint (.syscallsToPprint value) => s.setSyscallsToPprint arch value
  | .pprint (.syscallsToNotPprint value) => s.setSyscallsToNotPprint arch value

/-- The table after a call; one that raises has changed nothing. -/
def HandlerTable.after (s : HandlerTable) (call : HandlerCall) : HandlerTable :=
  match s.call arch call with
  | .ok t => t
  | .error _ => s

/-- The machine of the table -/
def handlerCalls : Machine HandlerTable HandlerCall where
  step s call := some (s.after arch call)

end Functions

namespace HandlerTable

/-! ### What the functions leave in the table -/

variable {arch : Architecture} {s t : HandlerTable} {number other : Nat}

/-- The lists, and whether pretty printing is on. -/
def lists (s : HandlerTable) : Option (List Nat) × Option (List Nat) × Bool :=
  (s.syscallsToPprint, s.syscallsToNotPprint, s.pprintSyscalls)

theorem selects_congr (same : t.lists = s.lists) : t.selects arch = s.selects arch := by
  simp only [lists, Prod.mk.injEq] at same
  obtain ⟨toPprint, notToPprint, -⟩ := same
  funext number
  simp only [selects, toPprint, notToPprint]

/-- The handler with the callbacks of the pretty printer set or cleared -/
def mark (selected : Bool) (h : SyscallHandler) : SyscallHandler :=
  { h with onEnterPprint := selected, onExitPprint := selected }

theorem mark_of_silent {h : SyscallHandler} (silent : hasPprintCallback h = false) :
    mark false h = h := by
  simp only [hasPprintCallback, Bool.or_eq_false_iff] at silent
  obtain ⟨enter, exit⟩ := silent
  cases h
  cases enter
  cases exit
  rfl

@[simp] theorem lists_enableOne : (s.enableOne arch number).lists = s.lists := by
  unfold enableOne
  split
  · rfl
  · split <;> rfl

theorem get?_enableOne : (s.enableOne arch number).handledSyscalls.get? other =
    if other = number then (s.handledSyscalls.get? number).map (mark (s.selects arch number))
    else s.handledSyscalls.get? other := by
  unfold enableOne
  split
  · exact Dict.get?_modify
  · rename_i absent
    have unchanged : s.handledSyscalls.get? other = if other = number then
        (s.handledSyscalls.get? number).map (mark (s.selects arch number))
        else s.handledSyscalls.get? other := by
      split
      · rename_i here
        rw [here, absent, Option.map_none]
      · rfl
    split
    · exact unchanged
    · exact unchanged

theorem commands_enableOne : (s.enableOne arch number).commands = s.commands ++
    if s.handledSyscalls.get? number = none ∧ s.selects arch number then
      [.handleSyscall (pprintHandler number)] else [] := by
  unfold enableOne
  split
  · rename_i h present
    simp [present, updateHandler]
  · rename_i absent
    cases chosen : s.selects arch number <;> simp [absent, put]

/-- The loop of `enable_pretty_print`: it marks the entries there are, and asks for entries
for the selected syscalls that have none. -/
theorem enable_loop (arch : Architecture) (s : HandlerTable) (numbers : List Nat) :
    (numbers.foldl (enableOne arch) s).lists = s.lists ∧
      (∀ n, (numbers.foldl (enableOne arch) s).handledSyscalls.get? n =
        if n ∈ numbers then (s.handledSyscalls.get? n).map (mark (s.selects arch n))
        else s.handledSyscalls.get? n) ∧
      (numbers.foldl (enableOne arch) s).commands = s.commands ++
        (numbers.filter fun n => s.handledSyscalls.get? n = none ∧ s.selects arch n).map
          (.handleSyscall ∘ pprintHandler) := by
  induction numbers generalizing s with
  | nil => simp
  | cons number rest ih =>
      obtain ⟨lists, entries, commands⟩ := ih (s.enableOne arch number)
      have chosen : (s.enableOne arch number).selects arch = s.selects arch :=
        selects_congr lists_enableOne
      have absent : ∀ n, (s.enableOne arch number).handledSyscalls.get? n = none ↔
          s.handledSyscalls.get? n = none := by
        intro n
        rw [get?_enableOne]
        split
        · rename_i here
          simp [here]
        · rfl
      refine ⟨lists.trans lists_enableOne, ?_, ?_⟩
      · intro n
        rw [List.foldl_cons, entries, chosen, get?_enableOne]
        by_cases here : n = number
        · subst here
          simp only [if_true, List.mem_cons_self, Option.map_map]
          split
          · rfl
          · rfl
        · simp only [here, if_false, List.mem_cons, false_or]
      · rw [List.foldl_cons, commands, chosen, commands_enableOne, List.append_assoc,
          List.filter_cons]
        simp only [absent]
        congr 1
        by_cases fresh : s.handledSyscalls.get? number = none ∧ s.selects arch number = true
        · simp [fresh]
        · simp only [fresh, if_false, decide_false, List.nil_append, Bool.false_eq_true]

/-- The polling thread enters the handlers that are for the pretty printer only. -/
theorem run_handle (numbers : List Nat) :
    ((numbers.map (.handleSyscall ∘ pprintHandler)).foldl runCommand t).lists = t.lists ∧
      ((numbers.map (.handleSyscall ∘ pprintHandler)).foldl runCommand t).commands = t.commands ∧
      ∀ n, ((numbers.map (.handleSyscall ∘ pprintHandler)).foldl runCommand
        t).handledSyscalls.get? n =
          if n ∈ numbers then some (pprintHandler n) else t.handledSyscalls.get? n := by
  induction numbers generalizing t with
  | nil => simp
  | cons number rest ih =>
      obtain ⟨lists, commands, entries⟩ := ih (t := t.runCommand (.handleSyscall
        (pprintHandler number)))
      refine ⟨lists, commands, ?_⟩
      intro n
      rw [List.map_cons, List.foldl_cons, Function.comp_apply, entries]
      have entered : (t.runCommand (.handleSyscall (pprintHandler number))).handledSyscalls.get? n =
          if n = number then some (pprintHandler number) else t.handledSyscalls.get? n :=
        Dict.get?_set
      rw [entered]
      by_cases here : n = number
      · subst here
        simp
      · simp [here]

/-- What `enable_pretty_print` makes of the entry of a syscall. -/
def enabledEntry (selected : Bool) (number : Nat) : Option SyscallHandler → Option SyscallHandler
  | some h => some (mark selected h)
  | none => if selected then some (pprintHandler number) else none

/-- What `disable_pretty_print` makes of an entry. -/
def disabledEntry (h : SyscallHandler) : Option SyscallHandler :=
  if hasPprintCallback h ∧ ¬ hasUserCallback h then none else some (mark false h)

theorem get?_enablePrettyPrint (arch : Architecture) (idle : s.commands = []) :
    (s.enablePrettyPrint arch).lists = s.lists ∧ (s.enablePrettyPrint arch).commands = [] ∧
      ∀ n, (s.enablePrettyPrint arch).handledSyscalls.get? n =
        if n ∈ getAllSyscallNumbers arch then
          enabledEntry (s.selects arch n) n (s.handledSyscalls.get? n)
        else s.handledSyscalls.get? n := by
  obtain ⟨lists, entries, commands⟩ := enable_loop arch s (getAllSyscallNumbers arch)
  rw [idle, List.nil_append] at commands
  rw [enablePrettyPrint, joinAndCheckStatus, commands]
  obtain ⟨joinedLists, joinedCommands, joined⟩ := run_handle
    (t := { (getAllSyscallNumbers arch).foldl (enableOne arch) s with commands := [] })
    ((getAllSyscallNumbers arch).filter fun n =>
      s.handledSyscalls.get? n = none ∧ s.selects arch n)
  refine ⟨joinedLists.trans lists, joinedCommands, ?_⟩
  intro n
  rw [joined]
  simp only [List.mem_filter, decide_eq_true_eq, entries]
  by_cases known : n ∈ getAllSyscallNumbers arch
  · cases present : s.handledSyscalls.get? n with
    | some h => simp [known, enabledEntry]
    | none => simp [known, enabledEntry]
  · simp [known]

@[simp] theorem lists_disableOne {handler : SyscallHandler} :
    (s.disableOne handler).lists = s.lists := by
  unfold disableOne
  split
  · split <;> rfl
  · rfl

/-- What the loop of `disable_pretty_print` makes of a handler by itself. -/
def clearUser (h : SyscallHandler) : SyscallHandler :=
  if hasPprintCallback h ∧ hasUserCallback h then mark false h else h

theorem get?_disableOne {handler : SyscallHandler}
    (installed : s.handledSyscalls.get? handler.syscallNumber = some handler) :
    (s.disableOne handler).handledSyscalls.get? other =
      if other = handler.syscallNumber then some (clearUser handler)
      else s.handledSyscalls.get? other := by
  have unchanged : s.handledSyscalls.get? other = if other = handler.syscallNumber then
      some handler else s.handledSyscalls.get? other := by
    split
    · rename_i here
      rw [here, installed]
    · rfl
  unfold disableOne clearUser
  cases printed : hasPprintCallback handler with
  | false => simpa [printed] using unchanged
  | true =>
      cases user : hasUserCallback handler with
      | false =>
          simp only [if_true, Bool.false_eq_true, and_false, if_false]
          exact unchanged
      | true =>
          simp only [if_true, and_self, updateHandler, Dict.get?_modify, installed,
            Option.map_some]
          rfl

theorem commands_disableOne {handler : SyscallHandler} :
    (s.disableOne handler).commands = s.commands ++
      if hasPprintCallback handler ∧ ¬ hasUserCallback handler then
        [.unhandleSyscall handler] else [] := by
  unfold disableOne
  cases printed : hasPprintCallback handler with
  | false => simp
  | true => cases user : hasUserCallback handler <;> simp [put, updateHandler]

/-- The loop of `disable_pretty_print`, over entries of the table: it clears those of the
user, and asks for the others to be removed. -/
theorem disable_loop (handlers : List SyscallHandler)
    (apart : (handlers.map (·.syscallNumber)).Nodup)
    (installed : ∀ h ∈ handlers, s.handledSyscalls.get? h.syscallNumber = some h) :
    (handlers.foldl disableOne s).lists = s.lists ∧
      (∀ n, (handlers.foldl disableOne s).handledSyscalls.get? n =
        if n ∈ handlers.map (·.syscallNumber) then (s.handledSyscalls.get? n).map clearUser
        else s.handledSyscalls.get? n) ∧
      (handlers.foldl disableOne s).commands = s.commands ++
        (handlers.filter fun h => hasPprintCallback h ∧ ¬ hasUserCallback h).map
          .unhandleSyscall := by
  induction handlers generalizing s with
  | nil => simp
  | cons first rest ih =>
      obtain ⟨firstApart, restApart⟩ := List.nodup_cons.mp apart
      have here := installed first List.mem_cons_self
      have restInstalled : ∀ h ∈ rest,
          (s.disableOne first).handledSyscalls.get? h.syscallNumber = some h := by
        intro h member
        have different : h.syscallNumber ≠ first.syscallNumber := fun same =>
          firstApart (List.mem_map.mpr ⟨h, member, same⟩)
        rw [get?_disableOne here, if_neg different]
        exact installed h (List.mem_cons_of_mem _ member)
      obtain ⟨lists, entries, commands⟩ := ih restApart restInstalled
      refine ⟨lists.trans lists_disableOne, ?_, ?_⟩
      · intro n
        rw [List.foldl_cons, entries, get?_disableOne here]
        by_cases same : n = first.syscallNumber
        · subst same
          simp [here, firstApart]
        · simp [same]
      · rw [List.foldl_cons, commands, commands_disableOne, List.append_assoc, List.filter_cons]
        congr 1
        by_cases removed : hasPprintCallback first ∧ ¬ hasUserCallback first
        · simp [removed]
        · simp only [removed, if_false, decide_false, List.nil_append, Bool.false_eq_true]

/-- The polling thread removes handlers. -/
theorem run_unhandle (handlers : List SyscallHandler) :
    ((handlers.map .unhandleSyscall).foldl runCommand t).lists = t.lists ∧
      ((handlers.map .unhandleSyscall).foldl runCommand t).commands = t.commands ∧
      ∀ n, ((handlers.map .unhandleSyscall).foldl runCommand t).handledSyscalls.get? n =
        if n ∈ handlers.map (·.syscallNumber) then none else t.handledSyscalls.get? n := by
  induction handlers generalizing t with
  | nil => simp
  | cons first rest ih =>
      obtain ⟨lists, commands, entries⟩ := ih (t := t.runCommand (.unhandleSyscall first))
      refine ⟨lists, commands, ?_⟩
      intro n
      rw [List.map_cons, List.foldl_cons, entries]
      have removed : (t.runCommand (.unhandleSyscall first)).handledSyscalls.get? n =
          if n = first.syscallNumber then none else t.handledSyscalls.get? n := Dict.get?_erase
      rw [removed]
      by_cases here : n = first.syscallNumber
      · subst here
        simp
      · simp [here]

/-- Every entry of the table is under the number of its syscall. -/
def Keyed (s : HandlerTable) : Prop :=
  ∀ n h, s.handledSyscalls.get? n = some h → h.syscallNumber = n

theorem Keyed.installed (keyed : s.Keyed) : ∀ h ∈ s.handledSyscalls.values,
    s.handledSyscalls.get? h.syscallNumber = some h := by
  intro h member
  obtain ⟨n, present⟩ := Dict.mem_values.mp member
  rw [keyed n h present]
  exact present

theorem Keyed.numbers (keyed : s.Keyed) :
    s.handledSyscalls.values.map (·.syscallNumber) = s.handledSyscalls.keys := by
  rw [Dict.values, List.map_map]
  apply List.map_congr_left
  intro e member
  exact keyed e.1 e.2 (Dict.get?_eq_some.mpr member)

theorem get?_disablePrettyPrint (keyed : s.Keyed) (idle : s.commands = []) :
    s.disablePrettyPrint.lists = s.lists ∧ s.disablePrettyPrint.commands = [] ∧
      ∀ n, s.disablePrettyPrint.handledSyscalls.get? n =
        (s.handledSyscalls.get? n).bind disabledEntry := by
  obtain ⟨lists, entries, commands⟩ := disable_loop (s := s) s.handledSyscalls.values
    (keyed.numbers ▸ s.handledSyscalls.distinct) keyed.installed
  rw [idle, List.nil_append] at commands
  rw [disablePrettyPrint, joinAndCheckStatus, commands]
  obtain ⟨joinedLists, joinedCommands, joined⟩ := run_unhandle
    (t := { s.handledSyscalls.values.foldl disableOne s with commands := [] })
    (s.handledSyscalls.values.filter fun h => hasPprintCallback h ∧ ¬ hasUserCallback h)
  refine ⟨joinedLists.trans lists, joinedCommands, ?_⟩
  intro n
  rw [joined]
  simp only [entries, keyed.numbers]
  cases present : s.handledSyscalls.get? n with
  | none => simp
  | some h =>
      have key : n ∈ s.handledSyscalls.keys := Dict.mem_keys.mpr ⟨h, present⟩
      have removed : n ∈ (s.handledSyscalls.values.filter fun h =>
          hasPprintCallback h ∧ ¬ hasUserCallback h).map (·.syscallNumber) ↔
            hasPprintCallback h ∧ ¬ hasUserCallback h := by
        simp only [List.mem_map, List.mem_filter, decide_eq_true_eq]
        constructor
        · rintro ⟨other, ⟨member, holds⟩, rfl⟩
          rw [keyed.installed other member, Option.some.injEq] at present
          exact present ▸ holds
        · intro holds
          exact ⟨h, ⟨Dict.mem_values.mpr ⟨n, present⟩, holds⟩, keyed n h present⟩
      simp only [removed, key, if_true, Option.map_some, Option.bind_some, disabledEntry]
      cases printed : hasPprintCallback h with
      | false => simp [clearUser, printed, mark_of_silent printed]
      | true => cases user : hasUserCallback h <;> simp [clearUser, printed, user]

theorem lists_joinAndCheckStatus : s.joinAndCheckStatus.lists = s.lists := by
  have runs : ∀ (commands : List HandlerCommand) (t : HandlerTable),
      (commands.foldl runCommand t).lists = t.lists := by
    intro commands
    induction commands with
    | nil => exact fun _ => rfl
    | cons command rest ih =>
        intro t
        rw [List.foldl_cons, ih]
        cases command <;> rfl
  exact runs s.commands _

theorem get?_install (number : Nat) (onEnter onExit : Option Callback) (recursive : Bool)
    (idle : s.commands = []) :
    (s.install number onEnter onExit recursive).lists = s.lists ∧
      (s.install number onEnter onExit recursive).commands = [] ∧
      ∀ n, (s.install number onEnter onExit recursive).handledSyscalls.get? n =
        if n = number then
          some (match s.handledSyscalls.get? number with
            | some h =>
                { h with onEnterUser := onEnter, onExitUser := onExit, recursive, enabled := true }
            | none =>
                ⟨number, onEnter, onExit, false, false, recursive, true, 0, false, false⟩)
        else s.handledSyscalls.get? n := by
  unfold install
  split
  · rename_i h present
    refine ⟨rfl, idle, ?_⟩
    intro n
    rw [updateHandler, Dict.get?_modify, present]
    rfl
  · rename_i absent
    refine ⟨lists_joinAndCheckStatus, ?_, ?_⟩
    · simp [joinAndCheckStatus, put, idle, runCommand]
    · intro n
      simp only [joinAndCheckStatus, put, idle, List.nil_append, List.foldl_cons, List.foldl_nil,
        runCommand, Dict.get?_set]

end HandlerTable

end Libdebug.InternalDebugger
