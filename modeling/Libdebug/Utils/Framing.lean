import Libdebug.Foundation.Framing
import Libdebug.Utils.Accounts

/-!
How much `recv` and `recvuntil` take from the output of the child process. A call for so many
bytes takes them all, or what there is. `recvuntil` reads byte by byte and starts with an empty
buffer after each occurrence of the delimiter, so that it takes one segment after another and
nothing of what follows them.
-/

namespace Libdebug.Utils

open Libdebug.Foundation Script

/-! ### The bounded loop -/

/-- No more is to be had: the timeout is reached, nothing is ready within it, or the stream has
ended. -/
def Answer.dry : Answer → Bool
  | .time .breakOn _ => true
  | .selected false => true
  | .data [] => true
  | _ => false

def RunsDry (answers : List Answer) : Prop := ∃ answer ∈ answers.getLast?, answer.dry = true

/-- The last answer is that reading has failed. -/
def Fails (answers : List Answer) : Prop := ∃ errno, answers.getLast? = some (.failed errno)

theorem getLast?_cons_of_some {α : Type} {last answer : α} {answers : List α}
    (ends : answers.getLast? = some last) : (answer :: answers).getLast? = some last := by
  cases answers with
  | nil => cases ends
  | cons next rest => rwa [List.getLast?_cons_cons]

theorem RunsDry.cons {answers : List Answer} (dry : RunsDry answers) (answer : Answer) :
    RunsDry (answer :: answers) := by
  obtain ⟨last, ends, holds⟩ := dry
  exact ⟨last, getLast?_cons_of_some ends, holds⟩

theorem Fails.cons {answers : List Answer} (fails : Fails answers) (answer : Answer) :
    Fails (answer :: answers) := by
  obtain ⟨errno, ends⟩ := fails
  exact ⟨errno, getLast?_cons_of_some ends⟩

theorem Fails.not_endsWell {answers : List Answer} (fails : Fails answers) :
    ¬ EndsWell answers := by
  obtain ⟨errno, ends⟩ := fails
  intro well
  cases well _ ends

/-- So many bytes are added to the buffer, or all that can be had. -/
structure Adds (numb : Nat) (buffer bytes : List Byte) (used : List Answer) : Prop where
  exact : bytes = buffer ++ delivered used
  bounded : (delivered used).length ≤ numb
  complete : (delivered used).length = numb ∨ RunsDry used

variable {numb : Nat} {buffer bytes : List Byte} {used : List Answer}

theorem Adds.cons {answer : Answer} (adds : Adds numb buffer bytes used)
    (silent : delivered [answer] = []) : Adds numb buffer bytes (answer :: used) := by
  have same : delivered (answer :: used) = delivered used := by
    rw [← List.singleton_append, delivered_append, silent, List.nil_append]
  constructor
  · rw [same]
    exact adds.exact
  · rw [same]
    exact adds.bounded
  · rw [same]
    exact adds.complete.imp_right fun dry => dry.cons answer

theorem adds_dry {answer : Answer} (dry : answer.dry = true) (silent : delivered [answer] = []) :
    Adds numb buffer buffer [answer] where
  exact := by rw [silent, List.append_nil]
  bounded := by rw [silent]; exact Nat.zero_le _
  complete := .inr ⟨answer, rfl, dry⟩

theorem osRead_fits (numb : Nat) :
    Ends (osRead numb) (fun bytes used => used = [.data bytes] ∧ bytes.length ≤ numb) Fails := by
  apply Ends.ask
  · rintro (_ | _ | bytes | _) a fit
    · cases fit
    · cases fit
    · simp only [Option.ite_none_right_eq_some, Option.some.injEq, Except.ok.injEq] at fit
      obtain ⟨short, rfl⟩ := fit
      exact ⟨rfl, short⟩
    · cases fit
  · rintro (_ | _ | bytes | errno) e fit
    · cases fit
    · cases fit
    · simp at fit
    · exact ⟨errno, rfl⟩

/-- A piece that is not empty, and then what else is to be had -/
theorem Adds.data {data : List Byte} {numb : Int} (short : data.length ≤ numb.toNat)
    (rest : Adds (numb - data.length).toNat (buffer ++ data) bytes used) :
    Adds numb.toNat buffer bytes (.data data :: used) := by
  have bounded := rest.bounded
  constructor
  · rw [delivered_data, ← List.append_assoc]
    exact rest.exact
  · rw [delivered_data, List.length_append]
    omega
  · rw [delivered_data, List.length_append]
    apply rest.complete.imp
    · intro full
      omega
    · intro dry
      exact dry.cons _

/-- The loop of `_recv` -/
theorem recvLoop_adds (endTime : Int) (turns : Nat) (numb : Int) (buffer : List Byte)
    (enough : numb ≤ turns) :
    Ends (PipeManager.recvLoop endTime turns numb buffer) (Adds numb.toNat buffer) Fails := by
  induction turns generalizing numb buffer with
  | zero =>
      have none : numb.toNat = 0 := by omega
      exact Ends.pure ⟨by simp, by simp, .inl (by simp [none])⟩
  | succ turns ih =>
      unfold PipeManager.recvLoop
      apply Ends.ite
      · intro positive
        apply time_bind
        intro now
        apply Ends.ite
        · intro _
          exact Ends.pure (adds_dry rfl rfl)
        · intro _
          apply time_bind
          intro later
          apply select_bind (le_max_left 0 _)
          · intro errno
            exact ⟨errno, rfl⟩
          · intro ready
            apply Ends.ite
            · intro _
              have read := (osRead_fits numb.toNat).translate fun _ =>
                .runtimeError "Broken pipe. Is the child process still running?"
              apply read.bind
              · intro used fails
                exact ((fails.cons _).cons _).cons _
              · rintro data _ ⟨rfl, short⟩
                apply Ends.ite
                · rintro rfl
                  exact Ends.pure ((((adds_dry rfl rfl).cons rfl).cons rfl).cons rfl)
                · intro nonempty
                  have taken := List.length_pos_of_ne_nil nonempty
                  apply (ih (numb - data.length) (buffer ++ data) (by omega)).mono
                  · intro bytes later adds
                    exact (((Adds.data short adds).cons rfl).cons rfl).cons rfl
                  · intro later fails
                    exact (((fails.cons _).cons _).cons _).cons _
            · intro idle
              obtain rfl : ready = false := Bool.eq_false_of_not_eq_true idle
              exact Ends.pure (((adds_dry rfl rfl).cons rfl).cons rfl)
      · intro few
        have none : numb.toNat = 0 := by omega
        exact Ends.pure ⟨by simp, by simp, .inl (by simp [none])⟩

/-! ### Receiving so many bytes -/

def PipeManager.recverr (pipe : PipeManager) (numb : Option Int) (timeout : Int) :
    Reads (List Byte) :=
  pipe.receive numb timeout true

/-- The file descriptor that is read from -/
def PipeManager.source (pipe : PipeManager) (stderr : Bool) : Nat :=
  if stderr then pipe.stderrRead else pipe.stdoutRead

variable {pipe : PipeManager} {stderr : Bool}

/-- Where a positive number is asked for, so many bytes are taken. -/
theorem receive_adds (live : pipe.source stderr ≠ 0) (positive : numb ≠ 0) (timeout : Int) :
    Ends (pipe.receive (some numb) timeout stderr) (Adds numb []) Fails := by
  have asked : ((some (numb : Int)).getD 0) = numb := rfl
  unfold PipeManager.receive
  rw [if_neg (by exact live), asked, if_pos (by omega), if_neg (by omega)]
  apply time_bind
  intro now
  apply (recvLoop_adds _ _ _ _ (by omega)).mono
  · intro bytes later adds
    rw [Int.toNat_natCast] at adds
    exact adds.cons rfl
  · intro later fails
    exact fails.cons _

/-- The call takes the first bytes of the output, as many as were asked for or can be had, and
returns them. -/
def HonoursBound (numb : Nat) (call : Reads (List Byte)) (script : List Answer) : Prop :=
  ∃ bytes used rest, script = used ++ rest ∧ call.run script = .ok bytes rest ∧
    Adds numb [] bytes used

/-- At the first look nothing is ready, or the stream has ended. -/
def NothingThere (script : List Answer) : Prop :=
  script.head? = some (.selected false) ∨ script.take 2 = [.selected true, .data []]

theorem receive_zero (live : pipe.source stderr ≠ 0) (timeout : Int) :
    pipe.receive (some (0 : Nat)) timeout stderr = (do
      if ← select timeout then osRead 4096 else pure []) := by
  unfold PipeManager.receive
  rw [if_neg (by exact live), if_neg (by decide)]

theorem honoursBound_zero_iff {call : Reads (List Byte)} (used rest : List Answer)
    (returned : call.run (used ++ rest) = .ok (delivered used) rest) :
    HonoursBound 0 call (used ++ rest) ↔ delivered used = [] := by
  constructor
  · rintro ⟨other, _, _, _, same, adds⟩
    rw [returned] at same
    cases same
    rw [adds.exact, List.nil_append]
    exact List.eq_nil_of_length_eq_zero (Nat.le_zero.mp adds.bounded)
  · intro none
    refine ⟨delivered used, used, rest, rfl, returned, rfl, ?_, ?_⟩
    · rw [none]
      exact Nat.le_refl 0
    · rw [none]
      exact .inl rfl

theorem run_osRead {data : List Byte} (short : data.length ≤ numb) (rest : List Answer) :
    (osRead numb).run (.data data :: rest) = .ok data rest := by
  unfold osRead Script.ask
  rw [EStateM.run_bind, EStateM.run_get]
  simp only [if_pos short]
  rfl

theorem run_osRead_long {data : List Byte} (long : ¬ data.length ≤ numb) (rest : List Answer) :
    (osRead numb).run (.data data :: rest) = .error .unanswered (.data data :: rest) := by
  unfold osRead Script.ask
  rw [EStateM.run_bind, EStateM.run_get]
  simp only [if_neg long]
  rfl

/-- Zero is taken for no number at all: up to 4096 bytes are read. -/
theorem receive_zero_honours_iff (live : pipe.source stderr ≠ 0) (timeout : Int)
    {script : List Answer}
    (answered : ∀ rest, (pipe.receive (some (0 : Nat)) timeout stderr).run script ≠
      .error .unanswered rest)
    (unfailing : ∀ errno, .failed errno ∉ script) :
    HonoursBound 0 (pipe.receive (some (0 : Nat)) timeout stderr) script ↔
      0 ≤ timeout ∧ NothingThere script := by
  rw [receive_zero live] at answered ⊢
  by_cases positive : 0 ≤ timeout
  · rw [and_iff_right positive]
    rw [select, if_neg (not_lt.mpr positive)] at answered ⊢
    rcases script with _ | ⟨⟨_, _⟩ | ready | data | errno, rest⟩
    · exact absurd rfl (answered [])
    · exact absurd rfl (answered _)
    · cases ready with
      | false =>
          have nothing : NothingThere (.selected false :: rest) := .inl rfl
          exact (honoursBound_zero_iff [.selected false] rest rfl).trans
            (iff_of_true rfl nothing)
      | true =>
          rcases rest with _ | ⟨⟨_, _⟩ | _ | data | errno, rest⟩
          · exact absurd rfl (answered [])
          · exact absurd rfl (answered _)
          · exact absurd rfl (answered _)
          · by_cases short : data.length ≤ 4096
            · have returned := run_osRead short rest
              refine (honoursBound_zero_iff [.selected true, .data data] rest ?_).trans ?_
              · rw [delivered_selected, delivered_data, delivered_nil, List.append_nil]
                exact returned
              · rw [delivered_selected, delivered_data, delivered_nil, List.append_nil]
                simp [NothingThere]
            · exact absurd (run_osRead_long short rest) (answered _)
          · exact absurd (.tail _ (.head _)) (unfailing errno)
    · exact absurd rfl (answered _)
    · exact absurd (.head _) (unfailing errno)
  · have negative : timeout < 0 := not_le.mp positive
    rw [select, if_pos negative]
    apply iff_of_false
    · rintro ⟨_, _, _, _, returned, _⟩
      cases returned
    · exact fun both => positive both.1

/-- `recv`, or `recverr` -/
def PipeManager.recvFrom (pipe : PipeManager) (stderr : Bool) (numb : Option Int)
    (timeout : Int) : Reads (List Byte) :=
  if stderr then pipe.recverr numb timeout else pipe.recv numb timeout

theorem recvFrom_eq (pipe : PipeManager) (stderr : Bool) (numb : Option Int) (timeout : Int) :
    pipe.recvFrom stderr numb timeout = pipe.receive numb timeout stderr := by
  cases stderr <;> rfl

/-- Two bytes arrive one by one, where three are asked for, and then nothing. -/
def twoOfThree : List Answer :=
  [.time .alarm 0, .time .breakOn 0, .time .remaining 0, .selected true, .data [0x41],
    .time .breakOn 1, .time .remaining 1, .selected true, .data [0x42],
    .time .breakOn 1, .time .remaining 1, .selected false]

variable {delims : List Byte} {drop : Bool} {endTime timeout : Int}

theorem not_endsWell_append (before : List Answer) {later : List Answer}
    (fatal : ¬ EndsWell later) : ¬ EndsWell (before ++ later) := by
  cases later with
  | nil => exact absurd endsWell_nil fatal
  | cons next rest =>
      intro well
      apply fatal
      intro answer last
      exact well answer (by simpa [List.getLast?_append] using last)

/-- What a segment comes to -/
def kept (drop : Bool) (delims segment : List Byte) : List Byte :=
  if drop then sliceTo segment (-delims.length) else segment

/-- A delimiter that is not empty is dropped with nothing else. -/
theorem kept_dropped (nonempty : delims ≠ []) (segment : List Byte) :
    kept true delims segment = segment.take (segment.length - delims.length) := by
  have positive := List.length_pos_of_ne_nil nonempty
  have index : sliceIndex segment.length (-delims.length) =
      segment.length - delims.length := by
    unfold sliceIndex
    rw [if_pos (by omega)]
    omega
  rw [kept, if_pos rfl, sliceTo, index]

/-- The loop of `_recvonceuntil` -/
theorem recvOnceUntilLoop_ends (live : pipe.source stderr ≠ 0) (turns : Nat)
    (buffer : List Byte) (absent : ¬ delims <:+: buffer) :
    Ends (pipe.recvOnceUntilLoop delims drop stderr endTime turns buffer)
      (fun bytes used => ∃ segment, IsSegment delims segment ∧
        buffer ++ delivered used = segment ∧ bytes = kept drop delims segment)
      fun used => ¬ EndsWell used := by
  induction turns generalizing buffer with
  | zero => exact Ends.unanswered
  | succ turns ih =>
      unfold PipeManager.recvOnceUntilLoop
      apply time_bind
      intro now
      apply Ends.ite
      · intro _
        apply Ends.raise
        simp [EndsWell, Answer.fatal]
      · intro _
        apply time_bind
        intro later
        have one := receive_adds live (show 1 ≠ 0 by decide) (max 0 (endTime - later))
        apply one.bind
        · intro used fails
          exact ((fails.cons _).cons _).not_endsWell
        · intro data used adds
          have read := adds.exact
          rw [List.nil_append] at read
          have before : ∀ rest, delivered (.time .raiseOn now :: .time .remaining later ::
              (used ++ rest)) = data ++ delivered rest := by
            intro rest
            rw [delivered_time, delivered_time, delivered_append, ← read]
          apply Ends.ite
          · intro present
            apply Ends.pure
            refine ⟨buffer ++ data, ?_, ?_, rfl⟩
            · have short := adds.bounded
              rw [← read] at short
              cases data with
              | nil => exact absurd (List.append_nil buffer ▸ present) absent
              | cons byte rest =>
                  obtain rfl : rest = [] := by simpa using short
                  exact isSegment_snoc absent present
            · rw [before, delivered_nil, List.append_nil]
          · intro still
            apply (ih (buffer ++ data) still).mono
            · rintro bytes rest ⟨segment, cut, whole, returned⟩
              refine ⟨segment, cut, ?_, returned⟩
              rw [before, ← List.append_assoc]
              exact whole
            · intro rest fatal
              rw [← List.cons_append, ← List.cons_append]
              exact not_endsWell_append _ fatal

theorem recvOnceUntil_ends (live : pipe.source stderr ≠ 0) (nonempty : delims ≠ [])
    (timeout : Int) :
    Ends (pipe.recvOnceUntil delims drop timeout stderr)
      (fun bytes used => ∃ segment, IsSegment delims segment ∧ delivered used = segment ∧
        bytes = kept drop delims segment)
      fun used => ¬ EndsWell used := by
  have absent : ¬ delims <:+: [] := mt List.infix_nil.mp nonempty
  unfold PipeManager.recvOnceUntil
  apply time_bind
  intro now
  apply Ends.get_bind
  intro script
  apply (recvOnceUntilLoop_ends live _ [] absent).mono
  · rintro bytes used ⟨segment, cut, whole, returned⟩
    exact ⟨segment, cut, whole, returned⟩
  · intro used fatal
    exact not_endsWell_append [_] fatal

/-- The loop of `_recvuntil`: one segment after the other -/
theorem recvUntilLoop_ends (live : pipe.source stderr ≠ 0) (nonempty : delims ≠ [])
    (occurences : Nat) (buffer : List Byte) :
    Ends (pipe.recvUntilLoop delims drop stderr endTime occurences buffer)
      (fun bytes used => ∃ segments : List (List Byte), segments.length = occurences ∧
        (∀ segment ∈ segments, IsSegment delims segment) ∧ delivered used = segments.flatten ∧
        bytes = buffer ++ (segments.map (kept drop delims)).flatten)
      fun used => ¬ EndsWell used := by
  induction occurences generalizing buffer with
  | zero => exact Ends.pure ⟨[], rfl, by simp, by simp, by simp⟩
  | succ occurences ih =>
      unfold PipeManager.recvUntilLoop
      apply time_bind
      intro now
      apply (recvOnceUntil_ends live nonempty _).bind
      · intro used fatal
        exact not_endsWell_append [_] fatal
      · rintro data used ⟨segment, cut, read, rfl⟩
        apply (ih (buffer ++ kept drop delims segment)).mono
        · rintro bytes later ⟨segments, count, cuts, reads, rfl⟩
          refine ⟨segment :: segments, by rw [List.length_cons, count], ?_, ?_, ?_⟩
          · exact List.forall_mem_cons.mpr ⟨cut, cuts⟩
          · rw [delivered_time, delivered_append, read, reads, List.flatten_cons]
          · rw [List.map_cons, List.flatten_cons, List.append_assoc]
        · intro later fatal
          rw [← List.cons_append]
          exact not_endsWell_append _ fatal

/-! ### Output that arrives at once -/

/-- The answers of a call of `_recvonceuntil` to which a segment arrives at once -/
def segmentArrives (segment : List Byte) : List Answer :=
  .time .remaining 0 :: .time .alarm 0 :: segment.flatMap byteArrives

theorem run_time (reading : Reading) (now : Int) (rest : List Answer) :
    (time reading).run (.time reading now :: rest) = .ok now rest := by
  unfold time Script.ask
  rw [EStateM.run_bind, EStateM.run_get]
  simp only [if_true]
  rfl

theorem run_select (positive : 0 ≤ timeout) (ready : Bool) (rest : List Answer) :
    (select timeout).run (.selected ready :: rest) = .ok ready rest := by
  rw [select, if_neg (not_lt.mpr positive)]
  rfl

theorem run_translate {α : Type} {call : Reads α} {value : α} {script rest : List Answer}
    (f : PipeError → PipeError) (returned : call.run script = .ok value rest) :
    (Script.translate f call).run script = .ok value rest := by
  change EStateM.tryCatch call _ script = _
  rw [EStateM.tryCatch]
  change call script = _ at returned
  rw [returned]

theorem run_receive_byte (live : pipe.source stderr ≠ 0) (positive : 0 ≤ timeout) (byte : Byte)
    (rest : List Answer) :
    (pipe.receive (some 1) timeout stderr).run (.time .alarm 0 :: .time .breakOn 0 ::
      .time .remaining 0 :: .selected true :: .data [byte] :: rest) = .ok [byte] rest := by
  have early : ¬ (0 : Int) > 0 + timeout := by omega
  have wait : 0 ≤ max 0 (0 + timeout - 0) := le_max_left 0 _
  have read := run_translate
    (fun _ => .runtimeError "Broken pipe. Is the child process still running?")
    (run_osRead (show [byte].length ≤ 1 from Nat.le_refl 1) rest)
  unfold PipeManager.receive
  rw [if_neg (by exact live), if_pos (by decide), if_neg (by decide), EStateM.run_bind, run_time]
  change (PipeManager.recvLoop (0 + timeout) 1 1 []).run _ = _
  unfold PipeManager.recvLoop
  rw [if_pos (by decide), EStateM.run_bind, run_time]
  simp only [if_neg early, EStateM.run_bind, run_time, run_select wait, if_true]
  rw [show (1 : Int).toNat = 1 from rfl, read]
  rfl

/-- The loop of `_recvonceuntil` returns at the end of a segment. -/
theorem run_recvOnceUntilLoop (live : pipe.source stderr ≠ 0) (positive : 0 ≤ endTime)
    (rest : List Answer) {bytes : List Byte} :
    ∀ {turns buffer}, bytes.length ≤ turns → bytes ≠ [] → IsSegment delims (buffer ++ bytes) →
      (pipe.recvOnceUntilLoop delims drop stderr endTime turns buffer).run
        (bytes.flatMap byteArrives ++ rest) = .ok (kept drop delims (buffer ++ bytes)) rest := by
  have early : ¬ (0 : Int) > endTime := not_lt.mpr positive
  have wait : 0 ≤ max 0 (endTime - 0) := le_max_left 0 _
  induction bytes with
  | nil =>
      intro turns buffer _ none
      exact absurd rfl none
  | cons byte later ih =>
      intro turns buffer enough _ cut
      cases turns with
      | zero => simp at enough
      | succ turns =>
          have read := run_receive_byte live wait byte (later.flatMap byteArrives ++ rest)
          unfold PipeManager.recvOnceUntilLoop
          change EStateM.run _ (.time .raiseOn 0 :: .time .remaining 0 :: .time .alarm 0 ::
            .time .breakOn 0 :: .time .remaining 0 :: .selected true :: .data [byte] ::
              (later.flatMap byteArrives ++ rest)) = _
          simp only [EStateM.run_bind, run_time, if_neg early, read]
          by_cases last : later = []
          · subst last
            have present : delims <:+: buffer ++ [byte] := cut.ends.isInfix
            rw [if_pos present]
            rfl
          · have absent : ¬ delims <:+: buffer ++ [byte] := by
              intro present
              have beginning : buffer ++ [byte] <+: buffer ++ byte :: later :=
                ⟨later, by simp⟩
              have whole := congrArg List.length (cut.shortest _ beginning present)
              simp only [List.length_append, List.length_cons, List.length_nil] at whole
              exact last (List.eq_nil_of_length_eq_zero (by omega))
            rw [if_neg absent]
            have goesOn := @ih turns (buffer ++ [byte])
              (Nat.le_of_succ_le_succ enough) last (by simpa using cut)
            simpa using goesOn

theorem run_recvUntilLoop (live : pipe.source stderr ≠ 0) (nonempty : delims ≠ [])
    (rest : List Answer) {segments : List (List Byte)}
    (cuts : ∀ segment ∈ segments, IsSegment delims segment) (buffer : List Byte) :
    (pipe.recvUntilLoop delims drop stderr endTime segments.length buffer).run
        (segments.flatMap segmentArrives ++ rest) =
      .ok (buffer ++ (segments.map (kept drop delims)).flatten) rest := by
  induction segments generalizing buffer with
  | nil =>
      rw [List.map_nil, List.flatten_nil, List.append_nil]
      rfl
  | cons segment later ih =>
      obtain ⟨cut, cuts⟩ := List.forall_mem_cons.mp cuts
      have filled : segment ≠ [] := by
        rintro rfl
        exact nonempty (List.suffix_nil.mp cut.ends)
      have enough : segment.length ≤
          (segment.flatMap byteArrives ++ (later.flatMap segmentArrives ++ rest)).length := by
        have seven : (segment.flatMap byteArrives).length = 7 * segment.length := by
          simp [List.length_flatMap, byteArrives, Nat.mul_comm]
        rw [List.length_append, seven]
        omega
      have ends : (pipe.recvOnceUntilLoop delims drop stderr (0 + max 0 (endTime - 0)) _ []).run
          (segment.flatMap byteArrives ++ (later.flatMap segmentArrives ++ rest)) = _ :=
        run_recvOnceUntilLoop live (by omega) _ enough filled cut
      rw [List.length_cons]
      unfold PipeManager.recvUntilLoop PipeManager.recvOnceUntil
      change EStateM.run _ (.time .remaining 0 :: .time .alarm 0 ::
        (segment.flatMap byteArrives ++ later.flatMap segmentArrives ++ rest)) = _
      rw [List.append_assoc]
      simp only [EStateM.run_bind, run_time, EStateM.run_get, ends, List.nil_append]
      rw [ih cuts, List.map_cons, List.flatten_cons, List.append_assoc]

/-- A call that returns has taken the shortest prefix of the output that contains the delimiter
so many times, one occurrence after the other, and returns it, or the segments it consists of
without their delimiters. It raises only where reading fails or the deadline has passed, and
returns where the segments arrive at once. -/
theorem receiveUntil_frames (live : pipe.source stderr ≠ 0) (nonempty : delims ≠ [])
    {occurences : Int} (positive : 1 ≤ occurences) (drop : Bool) (timeout : Int) :
    Ends (pipe.receiveUntil delims occurences drop timeout stderr)
      (fun bytes used => ∃ segments : List (List Byte), segments.length = occurences ∧
        (∀ segment ∈ segments, IsSegment delims segment) ∧
        (∀ stream, delivered used <+: stream →
          ShortestPrefix (Occurs delims occurences.toNat) (delivered used) stream) ∧
        delivered used = segments.flatten ∧
        bytes = if drop then (segments.map fun segment =>
            segment.take (segment.length - delims.length)).flatten
          else delivered used)
      (fun used => ¬ EndsWell used) ∧
    ∀ segments : List (List Byte), segments.length = occurences →
      (∀ segment ∈ segments, IsSegment delims segment) → ∀ rest, ∃ bytes,
        (pipe.receiveUntil delims occurences drop timeout stderr).run
          (.time .alarm 0 :: segments.flatMap segmentArrives ++ rest) = .ok bytes rest := by
  unfold PipeManager.receiveUntil
  rw [if_neg (by omega)]
  constructor
  · apply time_bind
    intro now
    apply (recvUntilLoop_ends live nonempty _ _).mono
    · rintro bytes used ⟨segments, count, cuts, reads, rfl⟩
      rw [delivered_time]
      refine ⟨segments, by omega, cuts, ?_, reads, ?_⟩
      · intro stream within
        rw [reads] at within ⊢
        rw [← count]
        exact shortestPrefix_flatten cuts within
      · rw [List.nil_append]
        cases drop with
        | false =>
            rw [if_neg Bool.false_ne_true, reads]
            exact congrArg _ (List.map_id segments)
        | true =>
            rw [if_pos rfl]
            apply congrArg
            apply List.map_congr_left
            intro segment _
            exact kept_dropped nonempty segment
    · intro used fatal
      exact not_endsWell_append [_] fatal
  · intro segments count cuts rest
    have length : occurences.toNat = segments.length := by omega
    have returned : (pipe.recvUntilLoop delims drop stderr (0 + timeout) segments.length []).run
        (segments.flatMap segmentArrives ++ rest) = _ :=
      run_recvUntilLoop live nonempty rest cuts []
    rw [List.cons_append, EStateM.run_bind, run_time, length]
    exact ⟨_, returned⟩

/-- The delimiter `aa` occurs in `aaaaab` twice without overlap. -/
theorem twice_framed :
    ∃ bytes, ((PipeManager.mk 3 4 5).receiveUntil [0x61, 0x61] 2 true 2 false).run
      (.time .alarm 0 :: [[0x61, 0x61], [0x61, 0x61]].flatMap segmentArrives ++
        [.selected true, .data [0x61, 0x62]]) = .ok bytes [.selected true, .data [0x61, 0x62]] := by
  have live : (PipeManager.mk 3 4 5).source false ≠ 0 := by decide
  apply (receiveUntil_frames live (List.cons_ne_nil _ _) (by decide) true 2).2
    [[0x61, 0x61], [0x61, 0x61]] rfl
  intro segment member
  obtain rfl : segment = [0x61] ++ [0x61] := by simpa using member
  exact isSegment_snoc (by decide) (by decide)

end Libdebug.Utils
