import Libdebug.Ptrace.UserSide
import Libdebug.Ptrace.HijackPhases
import Mathlib.Algebra.Group.Nat.Defs

/-!
The handler that `escape_antidebug` installs for the `ptrace` system calls of the tracee.

Its function for enter stops keeps the request for the one for exit stops, and looks up the name
of the request for a debug message. A request that is no member of `Commands` has none: then the
function raises, and with it the whole session. Requests that have a name are let through, but for
the first `PTRACE_TRACEME`, which is made to succeed.
-/

namespace Libdebug.Builtin

open Libdebug.Foundation Libdebug.Cffi Libdebug.Ptrace

/-! ### `Commands` -/

inductive Commands where
  | traceme | peektext | peekdata | peekuser | poketext | pokedata | pokeuser | cont | kill
  | singlestep | getregs | setregs | getfpregs | setfpregs | attach | detach | getfpxregs
  | setfpxregs | syscall | setoptions | geteventmsg | getsiginfo | setsiginfo | getregset
  | setregset | seize | interrupt | listen | peeksiginfo | getsigmask | setsigmask
  | seccompGetFilter | seccompGetMetadata | getSyscallInfo
  deriving DecidableEq, Repr

namespace Commands

def value : Commands → Nat
  | traceme => 0
  | peektext => 1
  | peekdata => 2
  | peekuser => 3
  | poketext => 4
  | pokedata => 5
  | pokeuser => 6
  | cont => 7
  | kill => 8
  | singlestep => 9
  | getregs => 12
  | setregs => 13
  | getfpregs => 14
  | setfpregs => 15
  | attach => 16
  | detach => 17
  | getfpxregs => 18
  | setfpxregs => 19
  | syscall => 24
  | setoptions => 0x4200
  | geteventmsg => 0x4201
  | getsiginfo => 0x4202
  | setsiginfo => 0x4203
  | getregset => 0x4204
  | setregset => 0x4205
  | seize => 0x4206
  | interrupt => 0x4207
  | listen => 0x4208
  | peeksiginfo => 0x4209
  | getsigmask => 0x420A
  | setsigmask => 0x420B
  | seccompGetFilter => 0x420C
  | seccompGetMetadata => 0x420D
  | getSyscallInfo => 0x420E

def all : List Commands :=
  [traceme, peektext, peekdata, peekuser, poketext, pokedata, pokeuser, cont, kill, singlestep,
    getregs, setregs, getfpregs, setfpregs, attach, detach, getfpxregs, setfpxregs, syscall,
    setoptions, geteventmsg, getsiginfo, setsiginfo, getregset, setregset, seize, interrupt, listen,
    peeksiginfo, getsigmask, setsigmask, seccompGetFilter, seccompGetMetadata, getSyscallInfo]

/-- `Commands(value)`, where it does not raise -/
def ofValue (value : Nat) : Option Commands := all.find? (·.value = value)

theorem mem_all (command : Commands) : command ∈ all := by
  cases command <;> decide

theorem ofValue_isSome {value : Nat} :
    (ofValue value).isSome ↔ ∃ command : Commands, command.value = value := by
  rw [ofValue, List.find?_isSome]
  constructor
  · rintro ⟨command, -, same⟩
    exact ⟨command, of_decide_eq_true same⟩
  · rintro ⟨command, same⟩
    exact ⟨command, mem_all command, decide_eq_true same⟩

end Commands

/-! ### The two functions -/

/-- The attributes `_traceme_called` and `_command` of the handler -/
structure HiddenState where
  tracemeCalled : Bool := false
  command : Option Nat := none

/-- What one of the functions does: the attributes that it leaves, its actions, and what it
raises -/
structure Reaction where
  handler : HiddenState
  actions : List Action := []
  raised : Option PyError := none

def onEnterPtrace (handler : HiddenState) (syscallArg0 : Nat) : Reaction where
  handler := { handler with command := some syscallArg0 }
  raised :=
    match Commands.ofValue syscallArg0 with
    -- the name goes into a debug message
    | some _ => none
    | none => some (.valueError s!"{syscallArg0} is not a valid Commands")

def onExitPtrace (handler : HiddenState) (registerFile : Ptr) : Reaction :=
  match handler.command with
  -- an error is logged
  | none => { handler }
  | some command =>
      if command = Commands.traceme.value then
        if !handler.tracemeCalled then
          { handler := { handler with tracemeCalled := true }
            actions := [.setRegister registerFile .rax 0] }
        else { handler }
      -- an error is logged
      else { handler }

variable {K : Type}

/-- The identities of the two functions -/
def onEnterCallback : Callback := 0

def onExitCallback : Callback := 1

namespace HiddenState

variable (handler : HiddenState)

def react (callback : Callback) (threadId : Int) (s : Debugger K) : Reaction :=
  match s.liveFile threadId with
  | none => { handler }
  | some registerFile =>
      if callback = onEnterCallback then
        onEnterPtrace handler (s.globalState.files registerFile .rdi)
      else onExitPtrace handler registerFile

/-- The two functions, as the status handler sees them at one stop -/
def code : UserCode K := fun callback threadId s =>
  let reaction := handler.react callback threadId s
  (reaction.actions, reaction.raised)

/-- The attributes after a stop that has led from `s` to `t`: it calls one function at most. -/
def follow (threadId : Int) (s t : Debugger K) : HiddenState :=
  if t.called.length = s.called.length then handler
  else
    match t.called.head? with
    | some (.onEnter _, _) => (handler.react onEnterCallback threadId s).handler
    | some (.onExit _, _) => (handler.react onExitCallback threadId s).handler
    | _ => handler

end HiddenState

/-! ### Calls of `ptrace` by the tracee -/

/-- `resolve_syscall_number("ptrace")` -/
def ptraceNumber : Nat := 101

/-- The debugger, and the attributes of the handler -/
structure Escape (K : Type) where
  debugger : Debugger K
  handler : HiddenState

def ptraceHandler : SyscallHandler where
  syscallNumber := ptraceNumber
  onEnterUser := some onEnterCallback
  onExitUser := some onExitCallback
  onEnterPprint := false
  onExitPprint := false

/-- `_enable_antidebug_escaping` -/
def enableAntidebugEscaping (s : Debugger K) : Escape K where
  debugger := { s with handledSyscalls := s.handledSyscalls.set ptraceNumber ptraceHandler }
  handler := {}

/-- Whatever happens between two stops at `ptrace`: the handler is left alone, and the thread is
not lost. -/
structure Interlude (K : Type) (threadId : Int) where
  run : Debugger K → Debugger K
  handler : ∀ s, (run s).handledSyscalls.get? ptraceNumber = s.handledSyscalls.get? ptraceNumber
  thread : ∀ s, (run s).liveFile threadId = s.liveFile threadId

/-- The tracee is resumed. -/
def Interlude.cont (k : Kernel K) (threadId : Int) : Interlude K threadId where
  run := stateAfter (Ptrace.cont k)
  handler s := congrArg (fun side => side.handledSyscalls.get? ptraceNumber) (cont_sparesUser s)
  thread s := Debugger.liveFile_of_identities (cont_touches s .identities (by decide)) threadId

/-- A call of `ptrace`: the registers at its two stops, and what happens before each. The kernel
leaves its result in `rax`. -/
structure PtraceCall (K : Type) (threadId : Int) where
  before : Interlude K threadId
  enter : UserRegs
  within : Interlude K threadId
  exit : UserRegs
  entersPtrace : enter .origRax = ptraceNumber
  exitsPtrace : exit .origRax = ptraceNumber

namespace PtraceCall

variable {threadId : Int} (call : PtraceCall K threadId)

def request : Nat := call.enter .rdi

def result : Nat := call.exit .rax

end PtraceCall

section Stops

variable (threadId : Int)

/-- Something happens to the debugger. -/
def passing (interlude : Interlude K threadId) : EStateM Abort (Escape K) Unit :=
  modify fun e => { e with debugger := interlude.run e.debugger }

/-- The thread stops at a system call with the registers. -/
def stopping (registers : UserRegs) : EStateM Abort (Escape K) Unit := fun e =>
  match e.debugger.liveFile threadId with
  | none => .ok () e
  | some file =>
      let stopped := e.debugger.withRegisters file registers
      match (handleSyscall e.handler.code threadId).run stopped with
      | .ok _ t => .ok () ⟨t, e.handler.follow threadId stopped t⟩
      | .error error t => .error error ⟨t, e.handler.follow threadId stopped t⟩

/-- Both stops of a call; the tracee gets what is in `rax` then. -/
def ptraceCall (call : PtraceCall K threadId) : EStateM Abort (Escape K) Nat := do
  passing threadId call.before
  stopping threadId call.enter
  passing threadId call.within
  stopping threadId call.exit
  let e ← get
  pure (((e.debugger.liveFile threadId).map (e.debugger.globalState.files · .rax)).getD 0)

def ptraceCalls : List (PtraceCall K threadId) → EStateM Abort (Escape K) (List Nat)
  | [] => pure []
  | call :: rest => do
      let result ← ptraceCall threadId call
      let results ← ptraceCalls rest
      pure (result :: results)

end Stops

/-- What an untraced process gets: the first `PTRACE_TRACEME` succeeds, and all else is as the
kernel has it. -/
def untraced {threadId : Int} : Bool → List (PtraceCall K threadId) → List Nat
  | _, [] => []
  | tracemeCalled, call :: rest =>
      if call.request = Commands.traceme.value ∧ tracemeCalled = false then 0 :: untraced true rest
      else call.result :: untraced tracemeCalled rest

/-- No call raises in the handler, and the tracee is told what an untraced process is. -/
def Escapes {threadId : Int} (s : Debugger K) (calls : List (PtraceCall K threadId)) : Prop :=
  Returns (ptraceCalls threadId calls) (fun results _ => results = untraced false calls)
    (enableAntidebugEscaping s)

/-! ### One stop -/

section Stops

variable {threadId : Int} {s : Debugger K} {file : Ptr} {hits : Nat} {handler : HiddenState}
  {site : CallSite}

/-- The request was `PTRACE_TRACEME`, for the first time. -/
def HiddenState.TracesMe (handler : HiddenState) : Prop :=
  handler.command = some Commands.traceme.value ∧ handler.tracemeCalled = false

instance : Decidable handler.TracesMe := inferInstanceAs (Decidable (_ ∧ _))

theorem onExitPtrace_eq (handler : HiddenState) (file : Ptr) : onExitPtrace handler file =
    if handler.TracesMe then
      { handler := { handler with tracemeCalled := true }
        actions := [.setRegister file .rax 0] }
    else { handler } := by
  rcases handler with ⟨tracemeCalled, _ | command⟩
  · rfl
  · by_cases first : command = Commands.traceme.value
    · cases tracemeCalled <;> simp [onExitPtrace, HiddenState.TracesMe, first]
    · simp [onExitPtrace, HiddenState.TracesMe, first]

variable (handler file) in
theorem tracemeCalled_onExit : (onExitPtrace handler file).handler.tracemeCalled =
    (handler.tracemeCalled || decide (handler.command = some Commands.traceme.value)) := by
  rw [onExitPtrace_eq]
  split
  · rename_i traces
    simp [traces.1]
  · rename_i silent
    cases called : handler.tracemeCalled with
    | true => rfl
    | false =>
        have other : handler.command ≠ some Commands.traceme.value :=
          fun traceme => silent ⟨traceme, called⟩
        simp [other]

/-- What the function for exit stops makes of `rax` -/
theorem rax_onExit (t : Debugger K) :
    (t.performAll (onExitPtrace handler file).actions).globalState.files file .rax =
      if handler.TracesMe then 0 else t.globalState.files file .rax := by
  rw [onExitPtrace_eq]
  split
  · simp [Debugger.performAll, Debugger.perform, Debugger.writeReg, GlobalState.setFile]
  · rfl

theorem handledSyscalls_onExit (t : Debugger K) :
    (t.performAll (onExitPtrace handler file).actions).handledSyscalls = t.handledSyscalls := by
  rw [onExitPtrace_eq]
  split <;> rfl

theorem react_onEnter (live : s.liveFile threadId = some file) :
    handler.react onEnterCallback threadId s =
      onEnterPtrace handler (s.globalState.files file .rdi) := by
  rw [HiddenState.react, live]
  exact if_pos rfl

theorem react_onExit (live : s.liveFile threadId = some file) :
    handler.react onExitCallback threadId s = onExitPtrace handler file := by
  have other : onExitCallback ≠ onEnterCallback := by decide
  rw [HiddenState.react, live]
  exact if_neg other

variable (handler site) in
/-- The function for enter stops raises if and only if the request has no name. -/
theorem run_onEnter (live : s.liveFile threadId = some file) :
    (runCallback handler.code site onEnterCallback threadId).run s =
      match Commands.ofValue (s.globalState.files file .rdi) with
      | some _ => .ok () (s.noteCall (site, threadId))
      | none => .error (.raised (.valueError
          s!"{s.globalState.files file .rdi} is not a valid Commands"))
            (s.noteCall (site, threadId)) := by
  have reaction : handler.react onEnterCallback threadId (s.noteCall (site, threadId)) =
      onEnterPtrace handler (s.globalState.files file .rdi) := react_onEnter live
  simp only [runCallback, EStateM.run_bind, EStateM.run_modify, EStateM.run_get,
    HiddenState.code, reaction, onEnterPtrace]
  cases Commands.ofValue (s.globalState.files file .rdi) with
  | none => rfl
  | some command => rfl

variable (handler site) in
theorem run_onExit (live : s.liveFile threadId = some file) :
    (runCallback handler.code site onExitCallback threadId).run s =
      .ok () ((s.noteCall (site, threadId)).performAll (onExitPtrace handler file).actions) := by
  have reaction : handler.react onExitCallback threadId (s.noteCall (site, threadId)) =
      onExitPtrace handler file := react_onExit live
  have silent : (onExitPtrace handler file).raised = none := by
    rw [onExitPtrace_eq]
    split <;> rfl
  simp only [runCallback, EStateM.run_bind, EStateM.run_modify, EStateM.run_get,
    HiddenState.code, reaction, silent]
  rfl

/-- The handler as it is between two calls -/
def installed (hits : Nat) : SyscallHandler := { ptraceHandler with hitCount := hits }

/-- A handler with functions never stops the process by itself. -/
theorem stopsOn_updateHandler {before : SyscallHandler} {f : SyscallHandler → SyscallHandler}
    (found : s.handledSyscalls.get? ptraceNumber = some before)
    (user : (f before).onEnterUser = some onEnterCallback) :
    (s.updateHandler ptraceNumber f).stopsOn ptraceNumber = false := by
  have after : (s.updateHandler ptraceNumber f).handledSyscalls.get? ptraceNumber =
      some (f before) := by
    simp only [Debugger.updateHandler, Dict.get?_modify, if_true, found, Option.map_some]
  simp [stopsOn_of_found after, user]

variable (handler) (live : s.liveFile threadId = some file)
  (shown : s.globalState.files file .origRax = ptraceNumber)

include live shown

theorem run_enterStop (found : s.handledSyscalls.get? ptraceNumber = some (installed hits)) :
    (handleSyscall handler.code threadId).run s =
      match Commands.ofValue (s.globalState.files file .rdi) with
      | some _ => .ok () ((s.noteCall (.onEnter ptraceNumber, threadId)).updateHandler ptraceNumber
          ({ · with hasEntered := true }))
      | none => .error (.raised (.valueError
          s!"{s.globalState.files file .rdi} is not a valid Commands"))
            (s.noteCall (.onEnter ptraceNumber, threadId)) := by
  obtain ⟨thread, context, id, rfl⟩ := liveFile_eq_some.mp live
  have number : s.syscallNumber thread = ptraceNumber := shown
  have called := run_onEnter handler (.onEnter ptraceNumber) live
  rw [handleSyscall, EStateM.run_bind, EStateM.run_get]
  dsimp only
  rw [context]
  dsimp only
  rw [number, found]
  dsimp only [installed, ptraceHandler]
  rw [if_neg Bool.false_ne_true, manageSyscallOnEnter, EStateM.run_bind, EStateM.run_get]
  dsimp only
  rw [found]
  dsimp only [installed, ptraceHandler]
  rw [enterHandler]
  dsimp only
  rw [callOnEnter, id, EStateM.run_bind, EStateM.run_bind, called]
  cases Commands.ofValue (s.globalState.files thread.registerFile .rdi) with
  | none => rfl
  | some command =>
      dsimp only
      have same : (s.noteCall (.onEnter ptraceNumber, threadId)).syscallNumber thread =
          ptraceNumber := number
      rw [EStateM.run_bind, EStateM.run_get]
      dsimp only
      rw [if_pos same, setHasEntered, EStateM.run_modify]
      dsimp only
      rw [EStateM.run_bind, EStateM.run_get]
      dsimp only
      have noted : (s.noteCall (.onEnter ptraceNumber, threadId)).handledSyscalls.get?
          ptraceNumber = some (installed hits) := found
      rw [stopsOn_updateHandler (f := ({ · with hasEntered := true })) noted rfl]
      rfl

theorem run_exitStop
    (found : s.handledSyscalls.get? ptraceNumber =
      some { installed hits with hasEntered := true }) :
    ∃ t, (handleSyscall handler.code threadId).run s = .ok () t ∧
      t.called = (.onExit ptraceNumber, threadId) :: s.called ∧
      t.liveFile threadId = some file ∧
      t.handledSyscalls.get? ptraceNumber = some (installed (hits + 1)) ∧
      t.globalState.files file .rax =
        if handler.TracesMe then 0 else s.globalState.files file .rax := by
  obtain ⟨thread, context, id, rfl⟩ := liveFile_eq_some.mp live
  have number : s.syscallNumber thread = ptraceNumber := shown
  set counted := s.updateHandler ptraceNumber fun h =>
    if h.enabled && !h.skipExit then { h with hitCount := h.hitCount + 1 } else h with counts
  have called := run_onExit handler (.onExit ptraceNumber) (s := counted) live
  set left := (counted.noteCall (.onExit ptraceNumber, threadId)).performAll
    (onExitPtrace handler thread.registerFile).actions with leaves
  have calls : callOnExit handler.code thread ptraceNumber
      { installed hits with hasEntered := true } =
        (runCallback handler.code (.onExit ptraceNumber) onExitCallback threadId : Py K Unit) := by
    rw [← id]
    rfl
  have identities : left.identities = s.identities := Debugger.identities_performAll _ _
  have same : left.handledSyscalls = counted.handledSyscalls := handledSyscalls_onExit _
  have there : left.handledSyscalls.get? ptraceNumber =
      some { installed (hits + 1) with hasEntered := true } := by
    rw [same, counts]
    simp only [Debugger.updateHandler, Dict.get?_modify, if_true, found, Option.map_some]
    rfl
  refine ⟨left.updateHandler ptraceNumber ({ · with hasEntered := false, skipExit := false }),
    ?_, ?_, ?_, ?_, ?_⟩
  · rw [handleSyscall, EStateM.run_bind, EStateM.run_get]
    dsimp only
    rw [context]
    dsimp only
    rw [number, found]
    dsimp only
    rw [if_pos rfl, exitHandler, EStateM.run_bind, EStateM.run_modify]
    dsimp only
    rw [← counts, EStateM.run_bind, calls, called]
    dsimp only
    rw [EStateM.run_bind, EStateM.run_modify]
    dsimp only
    rw [EStateM.run_bind, EStateM.run_get]
    dsimp only
    rw [stopsOn_updateHandler (f := ({ · with hasEntered := false, skipExit := false })) there
      rfl]
    rfl
  · exact Debugger.called_performAll _ _
  · exact (Debugger.liveFile_of_identities identities threadId).trans live
  · simp only [Debugger.updateHandler, Dict.get?_modify, if_true, there, Option.map_some]
    rfl
  · exact rax_onExit _

end Stops

/-! ### One call -/

section Calls

variable {threadId : Int} {file : Ptr} {tracemeCalled : Bool} {request : Nat} {e : Escape K}
  {registers : UserRegs}

/-- Between two calls -/
structure Escape.Outside (threadId : Int) (file : Ptr) (tracemeCalled : Bool) (e : Escape K) :
    Prop where
  live : e.debugger.liveFile threadId = some file
  handler : ∃ hits, e.debugger.handledSyscalls.get? ptraceNumber = some (installed hits)
  called : e.handler.tracemeCalled = tracemeCalled

/-- Between the two stops of a call -/
structure Escape.Inside (threadId : Int) (file : Ptr) (tracemeCalled : Bool) (request : Nat)
    (e : Escape K) : Prop where
  live : e.debugger.liveFile threadId = some file
  handler : ∃ hits, e.debugger.handledSyscalls.get? ptraceNumber =
    some { installed hits with hasEntered := true }
  called : e.handler.tracemeCalled = tracemeCalled
  command : e.handler.command = some request

theorem follow_onEnter {s t : Debugger K} {call : Int} {number : Nat} (handler : HiddenState)
    (called : t.called = (.onEnter number, call) :: s.called) :
    handler.follow threadId s t = (handler.react onEnterCallback threadId s).handler := by
  rw [HiddenState.follow, called, if_neg (by simp)]
  rfl

theorem follow_onExit {s t : Debugger K} {call : Int} {number : Nat} (handler : HiddenState)
    (called : t.called = (.onExit number, call) :: s.called) :
    handler.follow threadId s t = (handler.react onExitCallback threadId s).handler := by
  rw [HiddenState.follow, called, if_neg (by simp)]
  rfl

section AtAStop

variable (live : e.debugger.liveFile threadId = some file)

include live

theorem run_stopping : (stopping threadId registers).run e =
    match (handleSyscall e.handler.code threadId).run
      (e.debugger.withRegisters file registers) with
    | .ok _ t => .ok () ⟨t, e.handler.follow threadId (e.debugger.withRegisters file registers) t⟩
    | .error error t =>
        .error error ⟨t,
          e.handler.follow threadId (e.debugger.withRegisters file registers) t⟩ := by
  change (match e.debugger.liveFile threadId with
    | none => EStateM.Result.ok () e
    | some file => _) = _
  rw [live]

variable (registers) in
/-- The registers are those of the stop. -/
theorem stopped : (e.debugger.withRegisters file registers).liveFile threadId = some file ∧
    (e.debugger.withRegisters file registers).globalState.files file = registers :=
  ⟨live, Function.update_self ..⟩

end AtAStop

namespace Escape.Outside

variable (outside : e.Outside threadId file tracemeCalled)

include outside

theorem passing (interlude : Interlude K threadId) :
    ∃ after, (Builtin.passing threadId interlude).run e = .ok () after ∧
      after.Outside threadId file tracemeCalled := by
  obtain ⟨hits, found⟩ := outside.handler
  refine ⟨_, rfl, ?_, ⟨hits, ?_⟩, outside.called⟩
  · exact (interlude.thread e.debugger).trans outside.live
  · exact (interlude.handler e.debugger).trans found

/-- The request is kept for the exit stop. -/
theorem enter (number : registers .origRax = ptraceNumber)
    (named : (Commands.ofValue (registers .rdi)).isSome) :
    ∃ after, (stopping threadId registers).run e = .ok () after ∧
      after.Inside threadId file tracemeCalled (registers .rdi) := by
  obtain ⟨command, named⟩ := Option.isSome_iff_exists.mp named
  obtain ⟨hits, found⟩ := outside.handler
  obtain ⟨live, shown⟩ := stopped registers outside.live
  have entered := run_enterStop e.handler live (by rw [shown, number]) found
  rw [shown, named] at entered
  set t := ((e.debugger.withRegisters file registers).noteCall (.onEnter ptraceNumber,
    threadId)).updateHandler ptraceNumber ({ · with hasEntered := true }) with left
  have reaction : e.handler.follow threadId (e.debugger.withRegisters file registers) t =
      { e.handler with command := some (registers .rdi) } := by
    rw [follow_onEnter (t := t) e.handler rfl, react_onEnter live, shown]
    rfl
  refine ⟨⟨t, { e.handler with command := some (registers .rdi) }⟩, ?_, live, ⟨hits, ?_⟩,
    outside.called, rfl⟩
  · rw [run_stopping outside.live, entered]
    dsimp only
    rw [reaction]
  · rw [left]
    simp only [Debugger.updateHandler, Dict.get?_modify, if_true]
    exact congrArg (Option.map _) found

theorem enter_raises (number : registers .origRax = ptraceNumber)
    (unnamed : Commands.ofValue (registers .rdi) = none) :
    ∃ after, (stopping threadId registers).run e =
      .error (.raised (.valueError s!"{registers .rdi} is not a valid Commands")) after := by
  obtain ⟨hits, found⟩ := outside.handler
  obtain ⟨live, shown⟩ := stopped registers outside.live
  have raised := run_enterStop e.handler live (by rw [shown, number]) found
  rw [shown, unnamed] at raised
  rw [run_stopping outside.live, raised]
  exact ⟨_, rfl⟩

end Escape.Outside

namespace Escape.Inside

variable (inside : e.Inside threadId file tracemeCalled request)

include inside

theorem passing (interlude : Interlude K threadId) :
    ∃ after, (Builtin.passing threadId interlude).run e = .ok () after ∧
      after.Inside threadId file tracemeCalled request := by
  obtain ⟨hits, found⟩ := inside.handler
  refine ⟨_, rfl, ?_, ⟨hits, ?_⟩, inside.called, inside.command⟩
  · exact (interlude.thread e.debugger).trans inside.live
  · exact (interlude.handler e.debugger).trans found

/-- The first `PTRACE_TRACEME` succeeds, and every other result is left as it is. -/
theorem exit (number : registers .origRax = ptraceNumber) :
    ∃ after, (stopping threadId registers).run e = .ok () after ∧
      (after.debugger.globalState.files file .rax =
        if request = Commands.traceme.value ∧ tracemeCalled = false then 0 else registers .rax) ∧
      after.Outside threadId file
        (tracemeCalled || decide (request = Commands.traceme.value)) := by
  obtain ⟨hits, found⟩ := inside.handler
  obtain ⟨live, shown⟩ := stopped registers inside.live
  obtain ⟨t, exited, called, still, handler, rax⟩ :=
    run_exitStop e.handler live (by rw [shown, number]) found
  have first : e.handler.TracesMe ↔
      request = Commands.traceme.value ∧ tracemeCalled = false := by
    rw [HiddenState.TracesMe, inside.command, inside.called, Option.some.injEq]
  refine ⟨⟨t, e.handler.follow threadId (e.debugger.withRegisters file registers) t⟩, ?_, ?_,
    still, ⟨hits + 1, handler⟩, ?_⟩
  · rw [run_stopping inside.live, exited]
  · simp only [rax, first, shown]
  · have kept := tracemeCalled_onExit file e.handler
    rw [inside.called, inside.command] at kept
    rw [follow_onExit e.handler called, react_onExit live, kept]
    simp only [Option.some.injEq]

end Escape.Inside

/-! ### Sequences of calls -/

namespace Escape.Outside

variable (outside : e.Outside threadId file tracemeCalled) (call : PtraceCall K threadId)

include outside

theorem call_returns (named : (Commands.ofValue call.request).isSome) :
    ∃ after, (ptraceCall threadId call).run e =
        .ok (if call.request = Commands.traceme.value ∧ tracemeCalled = false then 0
          else call.result) after ∧
      after.Outside threadId file
        (tracemeCalled || decide (call.request = Commands.traceme.value)) := by
  obtain ⟨e₁, passed₁, outside₁⟩ := outside.passing call.before
  obtain ⟨e₂, entered, inside₂⟩ := outside₁.enter call.entersPtrace named
  obtain ⟨e₃, passed₃, inside₃⟩ := inside₂.passing call.within
  obtain ⟨after, exited, rax, outside₄⟩ := inside₃.exit call.exitsPtrace
  refine ⟨after, ?_, outside₄⟩
  rw [ptraceCall, EStateM.run_bind, passed₁]
  dsimp only
  rw [EStateM.run_bind, entered]
  dsimp only
  rw [EStateM.run_bind, passed₃]
  dsimp only
  rw [EStateM.run_bind, exited]
  dsimp only
  rw [EStateM.run_bind, EStateM.run_get]
  dsimp only
  rw [outside₄.live, EStateM.run_pure, Option.map_some, Option.getD_some, rax]
  rfl

theorem call_raises (unnamed : Commands.ofValue call.request = none) :
    ∃ after, (ptraceCall threadId call).run e =
      .error (.raised (.valueError s!"{call.request} is not a valid Commands")) after := by
  obtain ⟨e₁, passed, outside₁⟩ := outside.passing call.before
  obtain ⟨after, raised⟩ := outside₁.enter_raises call.entersPtrace unnamed
  refine ⟨after, ?_⟩
  rw [ptraceCall, EStateM.run_bind, passed]
  dsimp only
  rw [EStateM.run_bind, raised]
  rfl

omit outside in
theorem untraced_cons (rest : List (PtraceCall K threadId)) :
    untraced tracemeCalled (call :: rest) =
      (if call.request = Commands.traceme.value ∧ tracemeCalled = false then 0
        else call.result) ::
          untraced (tracemeCalled || decide (call.request = Commands.traceme.value)) rest := by
  rw [untraced]
  by_cases first : call.request = Commands.traceme.value
  · cases tracemeCalled <;> simp [first]
  · simp [first]

theorem calls_iff (calls : List (PtraceCall K threadId)) :
    Returns (ptraceCalls threadId calls) (fun results _ => results = untraced tracemeCalled calls)
        e ↔ ∀ call ∈ calls, (Commands.ofValue call.request).isSome := by
  induction calls generalizing e tracemeCalled with
  | nil => exact ⟨fun _ _ member => absurd member List.not_mem_nil, fun _ => ⟨[], e, rfl, rfl⟩⟩
  | cons call rest ih =>
      rw [List.forall_mem_cons]
      cases found : Commands.ofValue call.request with
      | none =>
          obtain ⟨stuck, raised⟩ := outside.call_raises call found
          constructor
          · rintro ⟨results, after, returned, -⟩
            obtain ⟨_, _, here, -⟩ := ok_of_bind returned
            rw [raised] at here
            cases here
          · intro named
            cases named.1
      | some command =>
          obtain ⟨next, returned, outside'⟩ :=
            outside.call_returns call (Option.isSome_iff_exists.mpr ⟨command, found⟩)
          rw [← ih outside', untraced_cons]
          constructor
          · rintro ⟨results, after, all, same⟩
            obtain ⟨result, _, here, later⟩ := ok_of_bind all
            rw [returned] at here
            cases here
            obtain ⟨others, _, below, last⟩ := ok_of_bind later
            cases last
            exact ⟨rfl, others, after, below, (List.cons.inj same).2⟩
          · rintro ⟨-, others, after, below, same⟩
            refine ⟨_ :: others, after, ?_, congrArg _ same⟩
            rw [ptraceCalls, EStateM.run_bind, returned]
            dsimp only
            rw [EStateM.run_bind, below]
            rfl

end Escape.Outside

theorem enableAntidebugEscaping_outside {s : Debugger K} (live : s.liveFile threadId = some file) :
    (enableAntidebugEscaping s).Outside threadId file false := by
  refine ⟨live, ⟨0, ?_⟩, rfl⟩
  exact (Dict.get?_set ..).trans (if_pos rfl)

/-- **Anti-debug escaping** shows the tracee what an untraced process gets if and only if every
request that it makes is the value of a member of `Commands`: the name of any other is looked up
in vain, and that ends the session. -/
theorem escapes_iff_requests_named {s : Debugger K} (live : (s.liveFile threadId).isSome)
    (calls : List (PtraceCall K threadId)) :
    Escapes s calls ↔ ∀ call ∈ calls, ∃ command : Commands, command.value = call.request := by
  obtain ⟨file, live⟩ := Option.isSome_iff_exists.mp live
  simp only [← Commands.ofValue_isSome]
  exact (enableAntidebugEscaping_outside live).calls_iff calls

end Calls

/-- A call that the kernel answers with the result -/
def calling (request result : Nat) : PtraceCall Script 1 where
  before := .cont scripted 1
  enter
    | .origRax => ptraceNumber
    | .rdi => request
    | _ => 0
  within := .cont scripted 1
  exit
    | .origRax => ptraceNumber
    | .rax => result
    | _ => 0
  entersPtrace := rfl
  exitsPtrace := rfl

/-- `PTRACE_TRACEME` twice: only the second one fails. -/
theorem traceme_twice_escapes : ∃ s, (debugging scripted idle).run
    (.initial (.nops { registers := fun _ => some fun _ => 0 })) [.registerNewThread 1] = some s ∧
      Escapes s [calling 0 (2 ^ 64 - 1), calling 3 (2 ^ 64 - 3), calling 0 (2 ^ 64 - 1)] := by
  obtain ⟨s, reached, live⟩ : ∃ s, (debugging scripted idle).run
      (.initial (.nops { registers := fun _ => some fun _ => 0 })) [.registerNewThread 1] =
        some s ∧ (s.liveFile 1).isSome :=
    Machine.exists_of_run (by decide +kernel)
  refine ⟨s, reached, (escapes_iff_requests_named live _).mpr ?_⟩
  simp only [List.forall_mem_cons]
  exact ⟨⟨.traceme, rfl⟩, ⟨.peekuser, rfl⟩, ⟨.traceme, rfl⟩, by simp⟩

/-- `PTRACE_SYSEMU`, or any other number without a name, ends the session. -/
theorem sysemu_ends_session : ∃ s, (debugging scripted idle).run
    (.initial (.nops { registers := fun _ => some fun _ => 0 })) [.registerNewThread 1] = some s ∧
      (∃ after, (ptraceCalls 1 [calling 31 0]).run (enableAntidebugEscaping s) =
        .error (.raised (.valueError "31 is not a valid Commands")) after) ∧
      ¬ Escapes s [calling 31 0] := by
  obtain ⟨s, reached, live⟩ : ∃ s, (debugging scripted idle).run
      (.initial (.nops { registers := fun _ => some fun _ => 0 })) [.registerNewThread 1] =
        some s ∧ (s.liveFile 1).isSome :=
    Machine.exists_of_run (by decide +kernel)
  obtain ⟨file, live⟩ := Option.isSome_iff_exists.mp live
  obtain ⟨after, raised⟩ := (enableAntidebugEscaping_outside live).call_raises (calling 31 0)
    (by decide)
  have ended : (ptraceCalls 1 [calling 31 0]).run (enableAntidebugEscaping s) =
      .error (.raised (.valueError "31 is not a valid Commands")) after := by
    rw [ptraceCalls, EStateM.run_bind, raised]
    rfl
  refine ⟨s, reached, ⟨after, ended⟩, ?_⟩
  rintro ⟨results, t, returned, -⟩
  rw [ended] at returned
  cases returned

end Libdebug.Builtin
