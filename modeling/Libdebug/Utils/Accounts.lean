import Libdebug.Utils.PipeManager
import Libdebug.Foundation.Runs

/-!
Whether every byte that is read from the output of the child process is returned. A call
that returns accounts for all that it has read, at every exit of its loops; where an
exception leaves the call, what its local buffers hold is lost.
-/

namespace Libdebug.Utils

open Libdebug.Foundation

/-! ### Calls, and what they account for -/

inductive Call where
  | recv (numb : Option Int) (timeout : Int)
  | recvuntil (delims : List Byte) (occurences : Int) (timeout : Int)
  | recvline (numlines : Int) (timeout : Int)
  deriving DecidableEq, Repr

/-- The call, with `drop=False`. -/
def Call.perform (pipe : PipeManager) : Call → Reads (List Byte)
  | .recv numb timeout => pipe.recv numb timeout
  | .recvuntil delims occurences timeout => pipe.recvuntil delims occurences false timeout
  | .recvline numlines timeout => pipe.recvline numlines false timeout

/-- The bytes that were read from the file descriptor. -/
def delivered (answers : List Answer) : List Byte :=
  answers.flatMap fun
    | .data bytes => bytes
    | _ => []

/-- The call raises at this answer: reading fails, or the deadline of `_recvonceuntil` has
passed. -/
def Answer.fatal : Answer → Bool
  | .failed _ => true
  | .time .raiseOn _ => true
  | _ => false

def EndsWell (answers : List Answer) : Prop := ∀ answer ∈ answers.getLast?, answer.fatal = false

instance (answers : List Answer) : Decidable (EndsWell answers) :=
  inferInstanceAs (Decidable (∀ answer ∈ answers.getLast?, answer.fatal = false))

@[simp] theorem delivered_nil : delivered [] = [] := rfl

@[simp] theorem delivered_time (reading : Reading) (now : Int) (rest : List Answer) :
    delivered (.time reading now :: rest) = delivered rest := rfl

@[simp] theorem delivered_selected (ready : Bool) (rest : List Answer) :
    delivered (.selected ready :: rest) = delivered rest := rfl

@[simp] theorem delivered_data (bytes : List Byte) (rest : List Answer) :
    delivered (.data bytes :: rest) = bytes ++ delivered rest := rfl

theorem delivered_append (first second : List Answer) :
    delivered (first ++ second) = delivered first ++ delivered second :=
  List.flatMap_append

@[simp] theorem endsWell_nil : EndsWell [] := fun _ none => by cases none

theorem endsWell_cons {answer : Answer} (safe : answer.fatal = false) (rest : List Answer) :
    EndsWell (answer :: rest) ↔ EndsWell rest := by
  cases rest with
  | nil => simp [EndsWell, safe]
  | cons next rest => simp [EndsWell, List.getLast?_cons_cons]

@[simp] theorem endsWell_cons_cons (first second : Answer) (rest : List Answer) :
    EndsWell (first :: second :: rest) ↔ EndsWell (second :: rest) := by
  simp [EndsWell, List.getLast?_cons_cons]

theorem endsWell_append {first second : List Answer} (before : EndsWell first) :
    EndsWell (first ++ second) ↔ EndsWell second := by
  cases second with
  | nil => simp [before]
  | cons next rest => simp [EndsWell, List.getLast?_append]

/-! ### One answer after another -/

section Rules

open Script

variable {α : Type} {post : α → List Answer → Prop} {abort : List Answer → Prop}

theorem time_bind {f : Int → Reads α} (reading : Reading)
    (next : ∀ now, Ends (f now) (fun a later => post a (.time reading now :: later))
      fun later => abort (.time reading now :: later)) :
    Ends (time reading >>= f) post abort := by
  have asked : Ends (time reading) (fun now used => used = [.time reading now]) fun _ => False := by
    apply Ends.ask
    · rintro (⟨asked, now⟩ | _ | _ | _) a fit
      · simp only [Option.ite_none_right_eq_some, Option.some.injEq, Except.ok.injEq] at fit
        rw [fit.1, fit.2]
      all_goals cases fit
    · rintro (⟨asked, now⟩ | _ | _ | _) e fit
      · simp at fit
      all_goals cases fit
  apply asked.bind
  · intro _ never
    exact never.elim
  · rintro now _ rfl
    exact next now

theorem select_bind {f : Bool → Reads α} {timeout : Int} (positive : 0 ≤ timeout)
    (fails : ∀ errno, abort [.failed errno])
    (next : ∀ ready, Ends (f ready) (fun a later => post a (.selected ready :: later))
      fun later => abort (.selected ready :: later)) :
    Ends (select timeout >>= f) post abort := by
  have asked : Ends (select timeout) (fun ready used => used = [.selected ready])
      fun used => ∃ errno, used = [.failed errno] := by
    rw [select, if_neg (by omega)]
    apply Ends.ask
    · rintro (_ | ready | _ | _) a fit
      all_goals cases fit
      rfl
    · rintro (_ | _ | _ | errno) e fit
      all_goals cases fit
      exact ⟨errno, rfl⟩
  apply asked.bind
  · rintro _ ⟨errno, rfl⟩
    exact fails errno
  · rintro ready _ rfl
    exact next ready

theorem osRead_ends (numb : Nat) :
    Ends (osRead numb) (fun bytes used => used = [.data bytes])
      fun used => ∃ errno, used = [.failed errno] := by
  apply Ends.ask
  · rintro (_ | _ | bytes | _) a fit
    · cases fit
    · cases fit
    · simp only [Option.ite_none_right_eq_some, Option.some.injEq, Except.ok.injEq] at fit
      rw [fit.2]
    · cases fit
  · rintro (_ | _ | bytes | errno) e fit
    · cases fit
    · cases fit
    · simp at fit
    · exact ⟨errno, rfl⟩

end Rules

/-! ### The loops -/

section Loops

open Script

variable {live : Prop} {buffer : List Byte} {pipe : PipeManager}

/-- The program returns what the buffer held and all that it has read, and raises at an
answer that makes it; or else there is no pipe, and nothing is read. -/
def Accounts (live : Prop) (buffer : List Byte) (p : Reads (List Byte)) : Prop :=
  Ends p (fun bytes used => bytes = buffer ++ delivered used ∧ EndsWell used ∧ live)
    fun used => EndsWell used → ¬ live ∧ delivered used = []

theorem accounts_pure (pipeLive : live) : Accounts live buffer (pure buffer) :=
  Ends.pure ⟨by simp, endsWell_nil, pipeLive⟩

theorem Accounts.bind {p : Reads (List Byte)} {f : List Byte → Reads (List Byte)}
    (first : Accounts live [] p)
    (second : ∀ data, live → Accounts live (buffer ++ data) (f data)) :
    Accounts live buffer (p >>= f) := by
  apply Ends.bind first
  · exact fun _ raised => raised
  · rintro _ used ⟨rfl, well, pipeLive⟩
    apply (second (delivered used) pipeLive).mono
    · rintro bytes later ⟨rfl, laterWell, -⟩
      refine ⟨?_, (endsWell_append well).mpr laterWell, pipeLive⟩
      rw [delivered_append, List.append_assoc]
    · intro later raised ends
      exact absurd pipeLive (raised ((endsWell_append well).mp ends)).1

/-- A reading of the clock after which the program goes on. -/
theorem accounts_time {reading : Reading} {f : Int → Reads (List Byte)}
    (safe : (Answer.time reading 0).fatal = false) (next : ∀ now, Accounts live buffer (f now)) :
    Accounts live buffer (time reading >>= f) := by
  apply time_bind
  intro now
  have goesOn (later : List Answer) : EndsWell (.time reading now :: later) ↔ EndsWell later :=
    endsWell_cons (by cases reading <;> first | rfl | exact safe) later
  apply (next now).mono
  · rintro bytes later ⟨rfl, well, pipeLive⟩
    exact ⟨rfl, (goesOn later).mpr well, pipeLive⟩
  · intro later raised well
    exact raised ((goesOn later).mp well)

theorem not_endsWell_failed (errno : Nat) : ¬ EndsWell [.failed errno] := by
  simp [EndsWell, Answer.fatal]

theorem accounts_select {timeout : Int} {f : Bool → Reads (List Byte)} (positive : 0 ≤ timeout)
    (next : ∀ ready, Accounts live buffer (f ready)) :
    Accounts live buffer (select timeout >>= f) := by
  apply select_bind positive
  · intro errno well
    exact absurd well (not_endsWell_failed errno)
  · intro ready
    have goesOn (later : List Answer) : EndsWell (.selected ready :: later) ↔ EndsWell later :=
      endsWell_cons rfl later
    apply (next ready).mono
    · rintro bytes later ⟨rfl, well, pipeLive⟩
      exact ⟨rfl, (goesOn later).mpr well, pipeLive⟩
    · intro later raised well
      exact raised ((goesOn later).mp well)

theorem osRead_accounts (pipeLive : live) (numb : Nat) : Accounts live [] (osRead numb) := by
  apply (osRead_ends numb).mono
  · rintro bytes _ rfl
    exact ⟨by simp, (endsWell_cons rfl _).mpr endsWell_nil, pipeLive⟩
  · rintro _ ⟨errno, rfl⟩ well
    exact absurd well (not_endsWell_failed errno)

theorem recvLoop_accounts (pipeLive : live) (endTime : Int) (turns : Nat) (numb : Int)
    (buffer : List Byte) :
    Accounts live buffer (PipeManager.recvLoop endTime turns numb buffer) := by
  induction turns generalizing numb buffer with
  | zero => exact accounts_pure pipeLive
  | succ turns ih =>
      unfold PipeManager.recvLoop
      apply Ends.ite
      · intro _
        apply accounts_time rfl
        intro now
        apply Ends.ite
        · exact fun _ => accounts_pure pipeLive
        · intro _
          apply accounts_time rfl
          intro now
          apply accounts_select (le_max_left 0 _)
          intro ready
          apply Ends.ite
          · intro _
            have read := (osRead_accounts pipeLive numb.toNat).translate fun _ =>
              .runtimeError "Broken pipe. Is the child process still running?"
            apply Accounts.bind read
            intro data _
            apply Ends.ite
            · rintro rfl
              exact Ends.pure ⟨by simp, endsWell_nil, pipeLive⟩
            · intro _
              exact ih _ _
          · exact fun _ => accounts_pure pipeLive
      · exact fun _ => accounts_pure pipeLive

/-- Receiving one byte, as `_recvonceuntil` does, raises on a live pipe where reading fails
only. -/
theorem receive_accounts (pipe : PipeManager) (timeout : Int) :
    Accounts (pipe.stdoutRead ≠ 0) [] (pipe.receive (some 1) timeout false) := by
  unfold PipeManager.receive
  apply Ends.ite
  · intro noPipe
    apply Ends.raise
    intro _
    exact ⟨not_not.mpr noPipe, rfl⟩
  · intro pipeLive
    rw [if_pos (by decide), if_neg (by decide)]
    apply accounts_time rfl
    intro now
    exact recvLoop_accounts pipeLive _ _ _ _

theorem recvOnceUntilLoop_accounts (pipe : PipeManager) (delims : List Byte) (endTime : Int)
    (turns : Nat) (buffer : List Byte) :
    Accounts (pipe.stdoutRead ≠ 0) buffer
      (pipe.recvOnceUntilLoop delims false false endTime turns buffer) := by
  induction turns generalizing buffer with
  | zero => exact Ends.unanswered
  | succ turns ih =>
      unfold PipeManager.recvOnceUntilLoop
      apply time_bind
      intro now
      apply Ends.ite
      · intro _
        apply Ends.raise
        intro well
        exact absurd well (by simp [EndsWell, Answer.fatal])
      · intro _
        apply time_bind
        intro later
        have received : Accounts (pipe.stdoutRead ≠ 0) buffer (do
            let data ← pipe.receive (some 1) (max 0 (endTime - later)) false
            if delims <:+: buffer ++ data then
              pure (if false then sliceTo (buffer ++ data) (-delims.length) else buffer ++ data)
            else
              pipe.recvOnceUntilLoop delims false false endTime turns (buffer ++ data)) := by
          apply (receive_accounts pipe _).bind
          intro data pipeLive
          apply Ends.ite
          · intro _
            exact accounts_pure pipeLive
          · intro _
            exact ih _
        have goesOn (used : List Answer) :
            EndsWell (.time .raiseOn now :: .time .remaining later :: used) ↔ EndsWell used :=
          (endsWell_cons_cons _ _ _).trans (endsWell_cons rfl used)
        apply received.mono
        · rintro bytes used ⟨rfl, well, pipeLive⟩
          exact ⟨rfl, (goesOn used).mpr well, pipeLive⟩
        · intro used raised well
          exact raised ((goesOn used).mp well)

theorem recvOnceUntil_accounts (pipe : PipeManager) (delims : List Byte) (timeout : Int) :
    Accounts (pipe.stdoutRead ≠ 0) [] (pipe.recvOnceUntil delims false timeout false) := by
  apply accounts_time rfl
  intro now
  apply Ends.get_bind
  intro script
  exact recvOnceUntilLoop_accounts pipe delims _ _ _

theorem recvUntilLoop_accounts (pipe : PipeManager) (delims : List Byte) (endTime : Int)
    (occurences : Nat) (buffer : List Byte) (live : occurences = 0 → pipe.stdoutRead ≠ 0) :
    Accounts (pipe.stdoutRead ≠ 0) buffer
      (pipe.recvUntilLoop delims false false endTime occurences buffer) := by
  induction occurences generalizing buffer with
  | zero => exact accounts_pure (live rfl)
  | succ occurences ih =>
      unfold PipeManager.recvUntilLoop
      apply accounts_time rfl
      intro now
      apply (recvOnceUntil_accounts pipe delims _).bind
      intro data pipeLive
      exact ih _ fun _ => pipeLive

theorem Accounts.ends {p : Reads (List Byte)} (accounts : Accounts live [] p) :
    Ends p (fun bytes used => bytes = delivered used ∧ EndsWell used)
      fun used => EndsWell used → delivered used = [] := by
  apply accounts.mono
  · rintro bytes used ⟨same, well, -⟩
    exact ⟨same, well⟩
  · intro used raised well
    exact (raised well).2

/-- Receiving any number of bytes. Where `numb` is refused, or the timeout, nothing is read. -/
theorem recv_ends (pipe : PipeManager) (numb : Option Int) (timeout : Int) :
    Ends (pipe.recv numb timeout) (fun bytes used => bytes = delivered used ∧ EndsWell used)
      fun used => EndsWell used → delivered used = [] := by
  unfold PipeManager.recv PipeManager.receive
  apply Ends.ite
  · exact fun _ => Ends.raise fun _ => rfl
  · intro _
    apply Ends.ite
    · intro _
      apply Ends.ite
      · exact fun _ => Ends.raise fun _ => rfl
      · intro _
        have accounts : Accounts True [] (time .alarm >>= fun now =>
            PipeManager.recvLoop (now + timeout) (numb.getD 0).toNat (numb.getD 0) []) :=
          accounts_time rfl fun now => recvLoop_accounts trivial _ _ _ _
        exact accounts.ends
    · intro _
      by_cases positive : 0 ≤ timeout
      · have accounts : Accounts True [] (select timeout >>= fun ready =>
            if ready then osRead 4096 else pure []) := by
          apply accounts_select positive
          intro ready
          apply Ends.ite
          · exact fun _ => osRead_accounts trivial 4096
          · exact fun _ => accounts_pure trivial
        exact accounts.ends
      · rw [select, if_pos (by omega)]
        exact Ends.raise fun _ => rfl

theorem recvuntil_ends (pipe : PipeManager) (delims : List Byte) (occurences timeout : Int) :
    Ends (pipe.recvuntil delims occurences false timeout)
      (fun bytes used => bytes = delivered used ∧ EndsWell used)
      fun used => EndsWell used → delivered used = [] := by
  unfold PipeManager.recvuntil PipeManager.receiveUntil
  apply Ends.ite
  · exact fun _ => Ends.raise fun _ => rfl
  · intro positive
    have accounts : Accounts (pipe.stdoutRead ≠ 0) [] (time .alarm >>= fun now =>
        pipe.recvUntilLoop delims false false (now + timeout) occurences.toNat []) := by
      apply accounts_time rfl
      intro now
      exact recvUntilLoop_accounts pipe delims _ _ _ (by omega)
    exact accounts.ends

/-- A call returns what it has read; where it raises otherwise than at an answer that makes
it, it has read nothing. -/
theorem Call.perform_ends (pipe : PipeManager) (call : Call) :
    Ends (call.perform pipe) (fun bytes used => bytes = delivered used ∧ EndsWell used)
      fun used => EndsWell used → delivered used = [] := by
  cases call with
  | recv numb timeout => exact recv_ends pipe numb timeout
  | recvuntil delims occurences timeout => exact recvuntil_ends pipe delims occurences timeout
  | recvline numlines timeout => exact recvuntil_ends pipe _ numlines timeout

end Loops

/-! ### Sequences of calls -/

/-- What the calls have returned so far, and what was read from the file descriptor. -/
structure Account where
  returned : List Byte
  consumed : List Byte
  deriving DecidableEq, Repr

def Account.Exact (s : Account) : Prop := s.returned = s.consumed

instance : DecidablePred Account.Exact := fun s =>
  inferInstanceAs (Decidable (s.returned = s.consumed))

/-- An event is a call, with the answers it takes from the clock, `select` and `os.read`. -/
def receiving (pipe : PipeManager) : Machine Account (Call × List Answer) where
  step s event :=
    match (event.1.perform pipe).run event.2 with
    | .ok bytes [] => some ⟨s.returned ++ bytes, s.consumed ++ delivered event.2⟩
    | .error (.raised _) [] => some ⟨s.returned, s.consumed ++ delivered event.2⟩
    | _ => none

/-- The call does not raise at an answer that makes it, or else it has read nothing. -/
def Lossless (answers : List Answer) : Prop := EndsWell answers ∨ delivered answers = []

instance (answers : List Answer) : Decidable (Lossless answers) :=
  inferInstanceAs (Decidable (EndsWell answers ∨ delivered answers = []))

variable {pipe : PipeManager} {s t : Account} {events : List (Call × List Answer)}

/-- After a call the account is exact as before if and only if the call was lossless. -/
theorem exact_step {event : Call × List Answer} (before : s.Exact)
    (stepped : (receiving pipe).step s event = some t) : t.Exact ↔ Lossless event.2 := by
  have ends := event.1.perform_ends pipe
  have same : s.returned = s.consumed := before
  simp only [receiving] at stepped
  split at stepped
  · rename_i bytes performed
    obtain ⟨used, whole, rfl, well⟩ := ends.of_ok performed
    cases stepped
    rw [List.append_nil] at whole
    rw [whole]
    constructor
    · exact fun _ => .inl well
    · intro _
      rw [Account.Exact, same]
  · rename_i error performed
    obtain ⟨used, whole, raised⟩ := ends.of_raised performed
    cases stepped
    rw [List.append_nil] at whole
    rw [whole]
    have kept : Account.Exact ⟨s.returned, s.consumed ++ delivered used⟩ ↔
        delivered used = [] := by
      rw [Account.Exact, same]
      simp
    rw [kept]
    exact ⟨.inr, fun lossless => lossless.elim raised id⟩
  · cases stepped

/-- In every sequence of calls, what they have returned is at every moment what was read
from the file descriptor, if and only if no call raises after it has read something. -/
theorem output_kept_iff (before : s.Exact) (reached : (receiving pipe).run s events = some t) :
    (receiving pipe).Throughout Account.Exact s events ↔ ∀ event ∈ events, Lossless event.2 := by
  rw [← Machine.meets_forall (fun event => Lossless event.2) reached]
  apply Machine.throughout_iff (motive := Account.Exact) _ _ before before reached
  · intro s event t exact_ stepped
    exact exact_step exact_ stepped
  · intro s event t exact_ lossless stepped
    exact (exact_step exact_ stepped).mpr lossless

/-- The answers to a turn of `_recvonceuntil` in which a byte arrives at once. -/
def byteArrives (byte : Byte) : List Answer :=
  [.time .raiseOn 0, .time .remaining 0, .time .alarm 0, .time .breakOn 0, .time .remaining 0,
    .selected true, .data [byte]]

/-- A line arrives in two pieces, and less than was asked for after it. -/
def pieces : List (Call × List Answer) :=
  [(.recvline 1 2, [.time .alarm 0, .time .remaining 0, .time .alarm 0] ++
      byteArrives 0x41#8 ++ byteArrives 0x0a#8),
    (.recv (some 2) 2, [.time .alarm 0, .time .breakOn 0, .time .remaining 0, .selected true,
      .data [0x42#8], .time .breakOn 1, .time .remaining 1, .selected false])]

theorem output_kept_in_pieces :
    (receiving ⟨3, 4, 5⟩).run ⟨[], []⟩ pieces =
        some ⟨[0x41#8, 0x0a#8, 0x42#8], [0x41#8, 0x0a#8, 0x42#8]⟩ ∧
      (receiving ⟨3, 4, 5⟩).Throughout Account.Exact ⟨[], []⟩ pieces := by
  have reached : (receiving ⟨3, 4, 5⟩).run ⟨[], []⟩ pieces =
      some ⟨[0x41#8, 0x0a#8, 0x42#8], [0x41#8, 0x0a#8, 0x42#8]⟩ := by decide +kernel
  have none : Account.Exact ⟨[], []⟩ := rfl
  exact ⟨reached, (output_kept_iff none reached).mpr (by decide)⟩

/-- The deadline passes before the end of the line has arrived. -/
theorem partial_line_lost :
    ∃ t, (receiving ⟨3, 4, 5⟩).run ⟨[], []⟩
        [(.recvline 1 2, [.time .alarm 0, .time .remaining 0, .time .alarm 0] ++
            byteArrives 0x41#8 ++ [.time .raiseOn 3])] = some t ∧
      t.returned = [] ∧ t.consumed = [0x41#8] :=
  ⟨_, rfl, rfl, rfl⟩

end Libdebug.Utils
