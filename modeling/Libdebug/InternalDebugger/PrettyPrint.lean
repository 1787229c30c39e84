import Libdebug.InternalDebugger.HandlerTable

/-!
Pretty printing beside the handlers of the user: what each of them has in the table of
handlers, over sequences of calls.
-/

namespace Libdebug.InternalDebugger

open Libdebug.Foundation Libdebug.Ptrace

section Functions

variable (arch : Architecture)

/-! ### What the user asked for, by itself -/

/-- What the user chose for a syscall. -/
structure UserHandler where
  onEnter : Option Callback
  onExit : Option Callback
  recursive : Bool
  enabled : Bool
  deriving DecidableEq

/-- What an entry of the table says of the user's choice. An entry without callbacks of the
user is the user's if it is enabled. -/
def userHandler (h : SyscallHandler) : Option UserHandler :=
  if hasUserCallback h || h.enabled then
    some ⟨h.onEnterUser, h.onExitUser, h.recursive, h.enabled⟩
  else none

/-- The user-defined part of the table. -/
def HandlerTable.userPart (s : HandlerTable) (number : Nat) : Option UserHandler :=
  (s.handledSyscalls.get? number).bind userHandler

/-- The choices of the user, without a pretty printer. -/
abbrev UserTable := Nat → Option UserHandler

/-- A syscall, and what a call chooses for it -/
structure Choice where
  number : Nat
  onEnter : Option Callback
  onExit : Option Callback
  recursive : Bool

/-- The choice that a call makes. -/
def UserCall.choice (users : UserTable) : UserCall → Except PyError Choice
  | .handleSyscall syscall onEnter onExit recursive => do
      let number ← syscall.resolve arch
      if (users number).any (fun u => u.onEnter.isSome || u.onExit.isSome) then
        let _ ← resolveSyscallName arch number
      return ⟨number, onEnter, onExit, recursive⟩
  | .hijackSyscall originalSyscall newSyscall recursive kwargs => do
      if ¬ kwargs.all (·.1 ∈ allowedArgs) then
        throw (.valueError "Invalid keyword arguments in syscall hijack")
      let original ← originalSyscall.resolve arch
      let new ← newSyscall.resolve arch
      if original = new then
        throw (.valueError
          "The original syscall and the new syscall must be different during hijacking.")
      return ⟨original, some (arch.createHijacker new kwargs), none, recursive⟩

/-- The choices after a call of the user, which makes one or raises -/
def UserTable.after (users : UserTable) (call : UserCall) : UserTable :=
  match call.choice arch users with
  | .ok chosen =>
      Function.update users chosen.number
        (some ⟨chosen.onEnter, chosen.onExit, chosen.recursive, true⟩)
  | .error _ => users

/-! ### What pretty printing should print -/

namespace HandlerTable

variable (s : HandlerTable)

/-- The syscalls that the two lists select. -/
def Selected (number : Nat) : Prop :=
  number ∈ getAllSyscallNumbers arch ∧ number ∉ s.syscallsToNotPprint.getD [] ∧
    ∀ toPprint, s.syscallsToPprint = some toPprint → number ∈ toPprint

/-- While pretty printing is on, its callbacks are set on the selected syscalls and on no
other ones. -/
def PrintsSelected : Prop :=
  s.pprintSyscalls = true → ∀ number,
    (s.Selected arch number → ∃ h, s.handledSyscalls.get? number = some h ∧
      h.onEnterPprint = true ∧ h.onExitPprint = true) ∧
    (¬ s.Selected arch number → ∀ h, s.handledSyscalls.get? number = some h →
      h.onEnterPprint = false ∧ h.onExitPprint = false)

/-- A list of syscalls to print that is empty makes no difference: the other list has all of
them. -/
def EmptyUnused : Prop :=
  s.pprintSyscalls = true → s.syscallsToPprint = some [] →
    ∀ number ∈ getAllSyscallNumbers arch, number ∈ s.syscallsToNotPprint.getD []

/-- The lists, as a call assigns them -/
def assigned : PprintCall → HandlerTable
  | .pprintSyscalls value => { s with pprintSyscalls := value }
  | .syscallsToPprint value =>
      match value.mapM (·.mapM (SyscallRef.resolve arch)) with
      | .ok value => { s with syscallsToPprint := value }
      | .error _ => s
  | .syscallsToNotPprint value =>
      match value.mapM (·.mapM (SyscallRef.resolve arch)) with
      | .ok value => { s with syscallsToNotPprint := value }
      | .error _ => s

/-- The handlers that `disable_pretty_print` removes are not the user's. -/
def RemovesNoneOfUser : Prop :=
  ∀ h ∈ s.handledSyscalls.values, hasPprintCallback h → h.enabled → hasUserCallback h

/-- The condition under which a call keeps the two roles apart. Where pretty printing is
switched off, every handler of the user that is printed has a callback; and an empty list of
syscalls to print is in use only where it makes no difference. -/
def KeepsApart : HandlerCall → Prop
  | .user _ => True
  | .pprint call =>
      (call = .pprintSyscalls false → s.RemovesNoneOfUser) ∧ (s.assigned arch call).EmptyUnused arch

/-- The table after a sequence of calls -/
def afterAll (calls : List HandlerCall) : HandlerTable := calls.foldl (after arch) s

end HandlerTable

end Functions

namespace HandlerTable

variable {arch : Architecture} {s t : HandlerTable} {number other : Nat}

/-! ### The user's part -/

@[simp] theorem userHandler_mark (selected : Bool) (h : SyscallHandler) :
    userHandler (mark selected h) = userHandler h := rfl

@[simp] theorem userHandler_pprintHandler : userHandler (pprintHandler number) = none := rfl

theorem userPart_install {onEnter onExit : Option Callback} {recursive : Bool}
    (idle : s.commands = []) : (s.install number onEnter onExit recursive).userPart =
      Function.update s.userPart number (some ⟨onEnter, onExit, recursive, true⟩) := by
  obtain ⟨-, -, entries⟩ := get?_install number onEnter onExit recursive idle
  funext n
  rw [userPart, entries]
  by_cases here : n = number
  · subst here
    cases s.handledSyscalls.get? n <;> simp [userHandler]
  · simp [here, userPart]

theorem overrides_eq : s.overrides number =
    (s.userPart number).any (fun u => u.onEnter.isSome || u.onExit.isSome) := by
  unfold overrides userPart
  cases s.handledSyscalls.get? number with
  | none => rfl
  | some h =>
      cases user : hasUserCallback h with
      | true =>
          simp only [hasUserCallback] at user
          simp [userHandler, hasUserCallback, user]
      | false => cases enabled : h.enabled <;> simp_all [userHandler, hasUserCallback]

/-- A call of the user installs what it chooses, and raises where it chooses nothing. -/
theorem call_user (call : UserCall) : s.call arch (.user call) =
    (call.choice arch s.userPart).map fun chosen =>
      s.install chosen.number chosen.onEnter chosen.onExit chosen.recursive := by
  cases call with
  | handleSyscall syscall onEnter onExit recursive =>
      simp only [HandlerTable.call, handleSyscall, UserCall.choice, overrides_eq]
      cases syscall.resolve arch with
      | error _ => rfl
      | ok number =>
          simp only [bind, Except.bind]
          by_cases overridden : (s.userPart number).any
              (fun u => u.onEnter.isSome || u.onExit.isSome) = true
          · simp only [overridden, if_true]
            cases resolveSyscallName arch number <;> rfl
          · simp only [overridden]
            rfl
  | hijackSyscall originalSyscall newSyscall recursive kwargs =>
      simp only [HandlerTable.call, hijackSyscall, UserCall.choice, bind, Except.bind]
      by_cases allowed : kwargs.all (·.1 ∈ allowedArgs)
      · simp only [allowed, not_true, if_false]
        cases originalSyscall.resolve arch with
        | error _ => rfl
        | ok original =>
            cases newSyscall.resolve arch with
            | error _ => rfl
            | ok new =>
                by_cases same : original = new
                · simp only [same, if_true]
                  rfl
                · simp only [same, if_false]
                  rfl
      · simp only [allowed]
        rfl

/-- A call of the user does to the user's part of the table what it does where there is no
pretty printer. -/
theorem userPart_after (call : UserCall) (idle : s.commands = []) :
    (s.after arch (.user call)).userPart = UserTable.after arch s.userPart call := by
  unfold after UserTable.after
  rw [call_user]
  cases chooses : call.choice arch s.userPart with
  | error _ => rfl
  | ok chosen => exact userPart_install idle

/-! ### What is printed -/

/-- Whether the pretty printer's callbacks are to be set on a syscall, as the code selects. -/
def prints (arch : Architecture) (s : HandlerTable) (number : Nat) : Bool :=
  s.pprintSyscalls && (number ∈ getAllSyscallNumbers arch && s.selects arch number)

/-- An entry has both callbacks of the pretty printer or none, and there is one where they
are wanted. -/
def PrintedAs (wanted : Bool) : Option SyscallHandler → Prop
  | some h => h.onEnterPprint = wanted ∧ h.onExitPprint = wanted
  | none => wanted = false

/-- What holds between the calls. -/
structure Consistent (arch : Architecture) (s : HandlerTable) : Prop where
  idle : s.commands = []
  keyed : s.Keyed
  printed : ∀ n, PrintedAs (s.prints arch n) (s.handledSyscalls.get? n)

theorem consistent_initial : Consistent arch .initial :=
  ⟨rfl, fun _ _ present => (nomatch present), fun _ => rfl⟩

theorem prints_congr (same : t.lists = s.lists) : t.prints arch = s.prints arch := by
  have printing : t.pprintSyscalls = s.pprintSyscalls := congrArg (·.2.2) same
  funext n
  rw [prints, prints, selects_congr same, printing]

theorem Consistent.install {onEnter onExit : Option Callback} {recursive : Bool}
    (consistent : Consistent arch s) :
    Consistent arch (s.install number onEnter onExit recursive) := by
  obtain ⟨lists, idle, entries⟩ := get?_install number onEnter onExit recursive consistent.idle
  have printed := consistent.printed number
  refine ⟨idle, ?_, ?_⟩
  · intro n h present
    rw [entries] at present
    split at present
    · rename_i here
      subst here
      cases before : s.handledSyscalls.get? n with
      | none =>
          rw [before] at present
          cases present
          rfl
      | some old =>
          rw [before] at present
          cases present
          exact consistent.keyed n old before
    · exact consistent.keyed n h present
  · intro n
    rw [entries, prints_congr lists]
    split
    · rename_i here
      subst here
      cases before : s.handledSyscalls.get? n with
      | none =>
          rw [before] at printed
          exact ⟨printed.symm, printed.symm⟩
      | some old =>
          rw [before] at printed
          exact printed
    · exact consistent.printed n

theorem Consistent.user (consistent : Consistent arch s) (call : UserCall) :
    Consistent arch (s.after arch (.user call)) := by
  unfold after
  rw [call_user]
  cases call.choice arch s.userPart with
  | error _ => exact consistent
  | ok chosen => exact consistent.install

theorem printedAs_mark {selected : Bool} {h : SyscallHandler} :
    PrintedAs selected (some (mark selected h)) := ⟨rfl, rfl⟩

theorem printedAs_enabledEntry {selected : Bool} {entry : Option SyscallHandler} :
    PrintedAs selected (enabledEntry selected number entry) := by
  cases entry with
  | some h => exact printedAs_mark
  | none => cases selected <;> simp [enabledEntry, PrintedAs, pprintHandler]

/-- Nothing that is not a syscall is printed. -/
theorem Consistent.elsewhere (consistent : Consistent arch s)
    (unknown : number ∉ getAllSyscallNumbers arch) :
    PrintedAs false (s.handledSyscalls.get? number) := by
  have printed := consistent.printed number
  simpa [prints, unknown] using printed

/-- To enable the printer gives every syscall the callbacks that it should have, whatever
it had. -/
theorem consistent_enable (idle : s.commands = []) (keyed : s.Keyed)
    (elsewhere : ∀ n, n ∉ getAllSyscallNumbers arch → PrintedAs false (s.handledSyscalls.get? n)) :
    Consistent arch { s.enablePrettyPrint arch with pprintSyscalls := true } := by
  obtain ⟨lists, idle, entries⟩ := get?_enablePrettyPrint arch idle
  have chosen : ({ s.enablePrettyPrint arch with pprintSyscalls := true }).selects arch =
      s.selects arch := selects_congr (s := s) (t := s.enablePrettyPrint arch) lists
  refine ⟨idle, ?_, ?_⟩
  · intro n h present
    simp only [entries] at present
    split at present
    · cases before : s.handledSyscalls.get? n with
      | some old =>
          rw [before] at present
          cases present
          exact keyed n old before
      | none =>
          rw [before, enabledEntry, Option.ite_none_right_eq_some] at present
          cases present.2
          rfl
    · exact keyed n h present
  · intro n
    rw [entries, prints, chosen]
    by_cases known : n ∈ getAllSyscallNumbers arch
    · simpa [known] using printedAs_enabledEntry
    · simpa [known] using elsewhere n known

theorem userPart_enable (idle : s.commands = []) :
    (s.enablePrettyPrint arch).userPart = s.userPart := by
  obtain ⟨-, -, entries⟩ := get?_enablePrettyPrint arch idle
  funext n
  rw [userPart, userPart, entries]
  split
  · cases s.handledSyscalls.get? n with
    | some h => rfl
    | none => cases chosen : s.selects arch n <;> simp [enabledEntry]
  · rfl

theorem consistent_disable (consistent : Consistent arch s) :
    Consistent arch { s.disablePrettyPrint with pprintSyscalls := false } := by
  obtain ⟨-, idle, entries⟩ := get?_disablePrettyPrint consistent.keyed consistent.idle
  refine ⟨idle, ?_, ?_⟩
  · intro n h present
    simp only [entries, Option.bind_eq_some_iff] at present
    obtain ⟨old, before, kept⟩ := present
    simp only [disabledEntry, Option.ite_none_left_eq_some, Option.some.injEq] at kept
    exact kept.2 ▸ consistent.keyed n old before
  · intro n
    simp only [entries, prints, Bool.false_and]
    cases s.handledSyscalls.get? n with
    | none => rfl
    | some h =>
        simp only [Option.bind_some, disabledEntry]
        split
        · rfl
        · exact printedAs_mark

theorem userPart_disable (consistent : Consistent arch s) :
    s.disablePrettyPrint.userPart = s.userPart ↔ s.RemovesNoneOfUser := by
  obtain ⟨-, -, entries⟩ := get?_disablePrettyPrint consistent.keyed consistent.idle
  constructor
  · intro same h member printed enabled
    obtain ⟨n, present⟩ := Dict.mem_values.mp member
    by_contra silent
    have lost := congrFun same n
    simp [userPart, entries, present, disabledEntry, userHandler, printed, silent, enabled] at lost
  · intro none
    funext n
    simp only [userPart, entries]
    cases present : s.handledSyscalls.get? n with
    | none => rfl
    | some h =>
        simp only [Option.bind_some, disabledEntry]
        split
        · rename_i removed
          have disabled : h.enabled = false := by
            by_contra enabled
            exact removed.2 (none h (Dict.mem_values.mpr ⟨n, present⟩) removed.1
              (Bool.eq_true_of_not_eq_false enabled))
          simp [userHandler, removed.2, disabled]
        · rfl

theorem emptyUnused_congr (same : t.lists = s.lists) :
    t.EmptyUnused arch ↔ s.EmptyUnused arch := by
  simp only [lists, Prod.mk.injEq] at same
  obtain ⟨toPprint, notToPprint, printing⟩ := same
  simp only [EmptyUnused, toPprint, notToPprint, printing]

/-- Where an empty list makes no difference, the code selects what the lists select. -/
theorem selects_iff (printing : s.pprintSyscalls = true) (unused : s.EmptyUnused arch) :
    s.Selected arch number ↔ s.prints arch number = true := by
  simp only [Selected, prints, selects, printing, Bool.true_and, Bool.and_eq_true,
    decide_eq_true_eq]
  cases toPprint : s.syscallsToPprint with
  | none =>
      simp only [reduceCtorEq, false_implies, implies_true, and_true]
      constructor
      · rintro ⟨known, shown⟩
        exact ⟨known, shown, known⟩
      · rintro ⟨known, shown, -⟩
        exact ⟨known, shown⟩
  | some numbers =>
      simp only [Option.some.injEq, forall_eq']
      cases numbers with
      | nil =>
          constructor
          · rintro ⟨-, -, none⟩
            cases none
          · rintro ⟨known, shown, -⟩
            exact absurd (unused printing toPprint number known) shown
      | cons first rest => exact Iff.rfl

theorem printsSelected_iff (consistent : Consistent arch s) :
    s.PrintsSelected arch ↔ s.EmptyUnused arch := by
  constructor
  · intro selected printing empty number known
    by_contra shown
    have printed := consistent.printed number
    have wanted : s.prints arch number = true := by
      simp [prints, selects, printing, empty, known, shown]
    have excluded : ¬ s.Selected arch number :=
      fun chosen => List.not_mem_nil (chosen.2.2 [] empty)
    rw [wanted] at printed
    cases present : s.handledSyscalls.get? number with
    | none =>
        rw [present] at printed
        cases printed
    | some h =>
        rw [present] at printed
        have silent := (selected printing number).2 excluded h present
        exact absurd (printed.1.symm.trans silent.1) (by decide)
  · intro unused printing number
    have printed := consistent.printed number
    constructor
    · intro chosen
      rw [(selects_iff printing unused).mp chosen] at printed
      cases present : s.handledSyscalls.get? number with
      | none =>
          rw [present] at printed
          cases printed
      | some h =>
          rw [present] at printed
          exact ⟨h, rfl, printed⟩
    · intro excluded h present
      rw [present, Bool.eq_false_iff.mpr (mt (selects_iff printing unused).mpr excluded)] at printed
      exact printed

/-! ### The steps -/

theorem lists_user (call : UserCall) (idle : s.commands = []) :
    (s.after arch (.user call)).lists = s.lists := by
  unfold after
  rw [call_user]
  cases call.choice arch s.userPart with
  | error _ => rfl
  | ok chosen => exact (get?_install _ _ _ _ idle).1

/-- What the setters of both lists leave, when they have assigned a list -/
theorem consistent_refresh (consistent : Consistent arch s)
    (table : t.handledSyscalls = s.handledSyscalls) (idle : t.commands = [])
    (printing : t.pprintSyscalls = s.pprintSyscalls) :
    Consistent arch (t.refresh arch) ∧ (t.refresh arch).userPart = s.userPart ∧
      (t.refresh arch).lists = t.lists := by
  have keyed : t.Keyed := fun n h present => consistent.keyed n h (table ▸ present)
  have users : t.userPart = s.userPart := by
    funext n
    rw [userPart, userPart, table]
  unfold refresh
  cases on : t.pprintSyscalls with
  | false =>
      simp only [Bool.false_eq_true, if_false]
      refine ⟨⟨idle, keyed, ?_⟩, users, trivial⟩
      intro n
      have printed := consistent.printed n
      simp only [prints, ← printing, on, Bool.false_and] at printed ⊢
      exact table ▸ printed
  | true =>
      simp only [if_true]
      have lists := (get?_enablePrettyPrint arch idle).1
      have flag : (t.enablePrettyPrint arch).pprintSyscalls = true :=
        (congrArg (·.2.2) lists).trans on
      have enabled : Consistent arch { t.enablePrettyPrint arch with pprintSyscalls := true } :=
        consistent_enable idle keyed fun n unknown => table ▸ consistent.elsewhere unknown
      refine ⟨?_, (userPart_enable idle).trans users, lists⟩
      rw [← flag] at enabled
      exact enabled

theorem after_pprint (consistent : Consistent arch s) (call : PprintCall) :
    Consistent arch (s.after arch (.pprint call)) ∧
      (s.after arch (.pprint call)).lists = (s.assigned arch call).lists ∧
      ((s.after arch (.pprint call)).userPart = s.userPart ↔
        (call = .pprintSyscalls false → s.RemovesNoneOfUser)) := by
  have refreshed : ∀ {t : HandlerTable} (same : call ≠ .pprintSyscalls false),
      Consistent arch (t.refresh arch) ∧ (t.refresh arch).userPart = s.userPart ∧
        (t.refresh arch).lists = t.lists →
      Consistent arch (t.refresh arch) ∧ (t.refresh arch).lists = t.lists ∧
        ((t.refresh arch).userPart = s.userPart ↔
          (call = .pprintSyscalls false → s.RemovesNoneOfUser)) := by
    rintro t other ⟨kept, users, lists⟩
    exact ⟨kept, lists, iff_of_true users fun same => absurd same other⟩
  have unchanged (other : call ≠ .pprintSyscalls false) : Consistent arch s ∧ s.lists = s.lists ∧
      (s.userPart = s.userPart ↔ (call = .pprintSyscalls false → s.RemovesNoneOfUser)) :=
    ⟨consistent, rfl, iff_of_true rfl fun same => absurd same other⟩
  cases call with
  | pprintSyscalls value =>
      cases value with
      | true =>
          have kept := (get?_enablePrettyPrint arch consistent.idle).1
          refine ⟨consistent_enable consistent.idle consistent.keyed fun n => consistent.elsewhere,
            ?_, iff_of_true (userPart_enable consistent.idle) (by simp)⟩
          exact congrArg (fun l => (l.1, l.2.1, true)) kept
      | false =>
          have kept := (get?_disablePrettyPrint consistent.keyed consistent.idle).1
          refine ⟨consistent_disable consistent, ?_, ?_⟩
          · exact congrArg (fun l => (l.1, l.2.1, false)) kept
          · have removed := userPart_disable consistent
            exact ⟨fun same _ => removed.mp same, fun none => removed.mpr (none rfl)⟩
  | syscallsToPprint value =>
      simp only [after, HandlerTable.call, setSyscallsToPprint, assigned]
      cases value.mapM (·.mapM (SyscallRef.resolve arch)) with
      | error _ => exact unchanged (by simp)
      | ok numbers =>
          exact refreshed (by simp) (consistent_refresh consistent rfl consistent.idle rfl)
  | syscallsToNotPprint value =>
      simp only [after, HandlerTable.call, setSyscallsToNotPprint, assigned]
      cases value.mapM (·.mapM (SyscallRef.resolve arch)) with
      | error _ => exact unchanged (by simp)
      | ok numbers =>
          exact refreshed (by simp) (consistent_refresh consistent rfl consistent.idle rfl)

/-! ### Runs -/

/-- The user's part is what the user's calls alone make it, and what is printed is what the
lists select. -/
def Apart (arch : Architecture) (s users : HandlerTable) : Prop :=
  s.userPart = users.userPart ∧ s.PrintsSelected arch

/-- What holds of a table and of one that the calls about pretty printing are erased from, as
long as the two roles are kept apart. -/
structure Side (arch : Architecture) (pair : HandlerTable × HandlerTable) : Prop where
  consistent : Consistent arch pair.1
  users : Consistent arch pair.2
  same : pair.1.userPart = pair.2.userPart
  unused : pair.1.EmptyUnused arch

theorem side_step {pair next : HandlerTable × HandlerTable} {call : HandlerCall}
    (side : Side arch pair)
    (stepped : ((handlerCalls arch).withErased HandlerCall.byUser).step pair call = some next) :
    (Apart arch next.1 next.2 ↔ pair.1.KeepsApart arch call) ∧
      (pair.1.KeepsApart arch call → Side arch next) := by
  cases call with
  | user call =>
      cases stepped
      have same : (pair.1.after arch (.user call)).userPart =
          (pair.2.after arch (.user call)).userPart := by
        rw [userPart_after call side.consistent.idle, userPart_after call side.users.idle,
          side.same]
      have unused : (pair.1.after arch (.user call)).EmptyUnused arch :=
        (emptyUnused_congr (lists_user call side.consistent.idle)).mpr side.unused
      have consistent := side.consistent.user call
      exact ⟨iff_of_true ⟨same, (printsSelected_iff consistent).mpr unused⟩ trivial,
        fun _ => ⟨consistent, side.users.user call, same, unused⟩⟩
  | pprint call =>
      cases stepped
      obtain ⟨consistent, lists, users⟩ := after_pprint side.consistent call
      have apart : Apart arch (pair.1.after arch (.pprint call)) pair.2 ↔
          pair.1.KeepsApart arch (.pprint call) := by
        rw [Apart, ← side.same, users, printsSelected_iff consistent, emptyUnused_congr lists]
        rfl
      refine ⟨apart, fun keeps => ?_⟩
      obtain ⟨same, selected⟩ := apart.mpr keeps
      exact ⟨consistent, side.users, same, (printsSelected_iff consistent).mp selected⟩

theorem run_handlerCalls (calls : List HandlerCall) :
    (handlerCalls arch).run s calls = some (s.afterAll arch calls) := by
  induction calls generalizing s with
  | nil => rfl
  | cons call rest ih => exact ih (s := s.after arch call)

/-- Through every sequence of calls the handlers of the user are those that the user's calls
alone make, and the pretty printer's callbacks are set on the syscalls that the lists select,
if and only if every call keeps the two roles apart. -/
theorem pretty_print_apart_iff (arch : Architecture) (calls : List HandlerCall) :
    (∀ earlier later, calls = earlier ++ later →
        Apart arch (initial.afterAll arch earlier)
          (initial.afterAll arch (earlier.filter (·.byUser)))) ↔
      (handlerCalls arch).Meets (KeepsApart arch) initial calls := by
  have runs : ∀ earlier, ((handlerCalls arch).withErased HandlerCall.byUser).run
      (initial, initial) earlier = some (initial.afterAll arch earlier,
        initial.afterAll arch (earlier.filter (·.byUser))) := by
    intro earlier
    rw [Machine.run_withErased, run_handlerCalls, run_handlerCalls]
    rfl
  have start : Side arch (initial, initial) :=
    ⟨consistent_initial, consistent_initial, rfl, fun printing => nomatch printing⟩
  have projected : (handlerCalls arch).Meets (KeepsApart arch) initial calls ↔
      ((handlerCalls arch).withErased HandlerCall.byUser).Meets
        (fun pair call => pair.1.KeepsApart arch call) (initial, initial) calls := by
    apply Machine.meets_map (M := (handlerCalls arch).withErased HandlerCall.byUser) Prod.fst
      (initial, initial)
    intro pair call
    cases call <;> rfl
  have throughout : ((handlerCalls arch).withErased HandlerCall.byUser).Throughout
      (fun pair => Apart arch pair.1 pair.2) (initial, initial) calls ↔ _ :=
    Machine.throughout_iff (fun _ _ _ side stepped => (side_step side stepped).1)
      (fun _ _ _ side keeps stepped => (side_step side stepped).2 keeps) start
      ⟨rfl, (printsSelected_iff consistent_initial).mpr start.unused⟩ (runs calls)
  rw [projected, ← throughout]
  constructor
  · intro always earlier later pair whole there
    rw [runs, Option.some.injEq] at there
    subst there
    exact always earlier later whole
  · intro always earlier later whole
    exact always earlier later _ whole (runs earlier)

/-- A handler without callbacks is lost when pretty printing is switched off, and an empty
list of syscalls to print selects them all. -/
theorem pretty_print_interferes :
    ∃ arch : Architecture,
      (∃ calls, (initial.afterAll arch calls).userPart 0 = none ∧
        (initial.afterAll arch (calls.filter (·.byUser))).userPart 0 =
          some ⟨none, none, false, true⟩) ∧
      ∃ calls, ¬ (initial.afterAll arch calls).PrintsSelected arch := by
  refine ⟨⟨[⟨"read", 0⟩, ⟨"write", 1⟩], fun _ _ => 0⟩, ⟨[.user (.handleSyscall (.name "read") none
    none false), .pprint (.pprintSyscalls true), .pprint (.pprintSyscalls false)], ?_, ?_⟩,
    ⟨[.pprint (.syscallsToPprint (some [])), .pprint (.pprintSyscalls true)], ?_⟩⟩
  · decide +kernel
  · decide +kernel
  · intro selected
    have excluded := (selected rfl 0).2 fun chosen => nomatch chosen.2.2 [] rfl
    exact absurd (excluded _ rfl).1 (by decide +kernel)

end HandlerTable

end Libdebug.InternalDebugger
