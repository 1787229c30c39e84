import Libdebug.Cffi.Armed
import Libdebug.Cffi.FirstInstruction
import Libdebug.Ptrace.Detach
import Libdebug.Ptrace.SoftwareAgreement
import Libdebug.Ptrace.UserSide

/-!
What the process executes, and what the user reads.

Between `cont` and the end of the next wait the text carries a trap at every software breakpoint
that the user has switched on, and at no other address; at a stop it is the program's own. This
takes the agreement of the two tables, the arming of what is in the table of the C layer, and the
saved words, which are what is written around a trap and in its place.
-/

namespace Libdebug.Ptrace

open Libdebug.Foundation Libdebug.Cffi

variable {K : Type} (k : Kernel K) {u : UserCode K} (own : Memory) (text : Set Nat)

/-- The text as the user has marked it. -/
def Debugger.marked (s : Debugger K) : Memory := fun x =>
  if s.softwareTable.any (· = (x, true)) then int3 else own x

/-- The threads resumed by `PTRACE_CONT`, each with the memory it resumes in, newest first -/
def resumptions (log : List Event) : List (Int × Memory) :=
  log.filterMap fun
    | .resumed tid _ memory => some (tid, memory)
    | _ => none

/-- What keeps the two tables in step, and the saved words the program's own: no hardware
breakpoint is created in the place of a software one, `finish` does not return to a software
breakpoint that is switched off for good, every `cont` applies its changes to the end, no
breakpoint that is registered saves the trap of another, the user writes nothing else to the text,
and `finish` deletes its breakpoint only after a wait that has collected something. -/
def Careful (s : Debugger K) (command : Command) : Prop :=
  KeepsSoftware k s command ∧ CleanCommand k own text s command

variable {k own text} {s t : Debugger K}

/-! ### The history of resumptions -/

theorem resumptions_injections (log : List Event) :
    resumptions (injections log) = resumptions log := by
  rw [resumptions, injections, List.filterMap_filterMap]
  refine List.filterMap_congr fun event _ => ?_
  cases event <;> rfl

/-- What is done before the process is resumed resumes nothing. -/
theorem prepareForRun_resumptions (g : GlobalState) (w : World K) :
    resumptions (prepareForRun k g w).2.log = resumptions w.log := by
  obtain ⟨w', performed, ended⟩ := prepareForRun_spec (k := k) g w
  have silent : resumptions w'.log = resumptions w.log := by
    refine performed.filterMap_log _ fun request event ok noted => ?_
    cases request <;> cases event <;> first | exact noted.elim | rfl | exact (ok.elim id id).elim
  rcases ended with gaveUp | ⟨status, -, armed⟩
  · rw [gaveUp]
    exact silent
  · rw [armed, armBreakpoints_eq]
    exact silent

/-- The resumed threads run in the memory that has been prepared for them. -/
theorem contAllAndSetBps_resumptions (keeps : k.KeepsText text) (g : GlobalState) (w : World K) :
    ∃ new, resumptions (contAllAndSetBps k g w).2.2.log = new ++ resumptions w.log ∧
      ∀ run ∈ new, ∀ x ∈ text, run.2 x = (prepareForRun k g w).2.mem x := by
  have resumed := resumeLoop_performs (k := k) g.handleSyscallEnabled g.tHead g
    (prepareForRun k g w).2
  obtain ⟨events, quiet⟩ := resumed.quiet keeps fun request ok => ok.runs
  refine ⟨resumptions events, ?_, fun run member x inText => ?_⟩
  · have log : (contAllAndSetBps k g w).2.2.log = events ++ (prepareForRun k g w).2.log :=
      quiet.log
    rw [log, resumptions, List.filterMap_append, ← resumptions, ← resumptions,
      prepareForRun_resumptions]
  · obtain ⟨event, logged, same⟩ := List.mem_filterMap.mp member
    cases event <;> cases same
    rename_i tid signal memory
    exact (quiet.ran _ logged tid memory (if_pos rfl)).2 x inText

/-! ### The armed text -/

/-- Armed, the text differs from the program's own at the entries that are switched on only,
which are traps. -/
theorem prepareForRun_text (keeps : k.KeepsText text) {g : GlobalState} {w : World K}
    {planted : List Nat} (clean : Session.Clean own text ⟨g, w, planted⟩)
    (increasing : Increasing g.bHead) (prepared : 0 ≤ (prepareForRun k g w).1) {x : Nat}
    (inText : x ∈ text) :
    (prepareForRun k g w).2.mem x = if x ∈ g.enabledAddrs then int3 else own x := by
  split
  · rename_i on
    obtain ⟨b, member, enabled, rfl⟩ := GlobalState.mem_enabledAddrs.mp on
    obtain ⟨w', -, gaveUp | ⟨status, -, armed⟩⟩ := prepareForRun_spec (k := k) g w
    · rw [gaveUp] at prepared
      omega
    · rw [armed]
      exact armBreakpoints_int3 increasing member enabled
  · rename_i off
    exact ((clean.prepare keeps).bytes x inText).resolve_right fun ⟨_, on⟩ => off on

/-! ### `cont` -/

/-- What `cont` does once the changes are applied and taken down. -/
def Debugger.noted (s : Debugger K) : Debugger K :=
  { s with
    applied := s.snapshot :: s.applied
    globalState := { s.globalState with
      handleSyscallEnabled := handleSyscallEnabled s.handledSyscalls.values } }

theorem cont_ok (returned : (cont k).run s = .ok () t) :
    ∃ changed : Debugger K, (forwardSignals >>= fun _ => applyChanges k).run s = .ok () changed ∧
      0 ≤ (contAllAndSetBps k changed.noted.globalState changed.noted.world).1 ∧
      t = changed.noted.withLib
        (contAllAndSetBps k changed.noted.globalState changed.noted.world).2.1
        (contAllAndSetBps k changed.noted.globalState changed.noted.world).2.2 := by
  obtain ⟨_, forwarded, first, returned⟩ := ok_of_bind returned
  obtain ⟨_, changed, second, returned⟩ := ok_of_bind returned
  refine ⟨changed, by rw [EStateM.run_bind, first]; exact second, ?_⟩
  obtain ⟨_, _, takenDown, returned⟩ := ok_of_bind returned
  cases takenDown
  obtain ⟨_, _, flagged, returned⟩ := ok_of_bind returned
  cases flagged
  obtain ⟨result, resumed, called, returned⟩ := ok_of_bind returned
  obtain ⟨succeeded, rfl⟩ := raiseErrnoIf_ok returned
  cases called
  exact ⟨Int.not_lt.mp succeeded, rfl⟩

/-- The changes leave the saved words the program's own. -/
theorem applied_clean :
    Maintains (Debugger.Clean own text) (forwardSignals >>= fun _ => applyChanges k) :=
  (maintains_clean forwardSignals_textKept).bind fun _ => Keeps.get.bind fun _ =>
    (maintains_clean (collectChanged_textKept _)).bind fun _ =>
      Keeps.forM fun bp _ => applyChange_clean bp

/-- The changes are no resumption. -/
theorem applied_resumptions : Leaves (fun s => resumptions s.world.log)
    (forwardSignals >>= fun _ => applyChanges k : Py K Unit) := by
  have touches : Touches {.nodes, .threads, .pending, .table, .helpers, .breakpoints, .objects}
      (forwardSignals >>= fun _ => applyChanges k : Py K Unit) :=
    (forwardSignals_touches.mono (by decide)).bind fun _ => applyChanges_touches.mono (by decide)
  intro s
  have injected : injections _ = injections _ := touches s .injections (by decide)
  rw [Same, ← resumptions_injections, injected, resumptions_injections]

/-- Where the tables agree, the entries that are switched on are the user's breakpoints that
are. -/
theorem mem_enabledAddrs_of_agrees (agrees : s.snapshot.SoftwareAgrees) (x : Nat) :
    x ∈ s.globalState.enabledAddrs ↔ (x, true) ∈ s.softwareTable := by
  have entries : x ∈ s.globalState.enabledAddrs ↔ (x, true) ∈ s.snapshot.entries := by
    rw [GlobalState.mem_enabledAddrs, Debugger.snapshot, List.mem_map]
    refine exists_congr fun b => and_congr_right fun _ => ?_
    rw [Prod.mk.injEq, and_comm]
  rw [entries]
  exact ⟨agrees.1 _, agrees.2 _⟩

/-- The process is resumed in the text as the user has marked it. -/
theorem cont_marked (keeps : k.KeepsText text) (kept : SoftwareKept s) (clean : s.Clean own text)
    (returned : (cont k).run s = .ok () t) :
    ∃ new, resumptions t.world.log = new ++ resumptions s.world.log ∧
      ∀ run ∈ new, ∀ x ∈ text, run.2 x = t.marked own x := by
  obtain ⟨changed, applied, prepared, resumed⟩ := cont_ok returned
  have applies : s.applies k = true := by
    rw [Debugger.applies, applied]
  -- the tables agree once the changes are applied
  obtain ⟨inOrder, -, snapshot, agrees, taken⟩ := cont_inOrder_software applies kept.inOrder
  rw [stateAfter_of_ok returned, resumed] at inOrder taken
  obtain rfl : changed.snapshot = snapshot := (List.cons.inj taken).1
  have increasing : Increasing changed.noted.globalState.bHead := inOrder.increasing
  have armed : Session.Clean own text ⟨changed.noted.globalState, changed.noted.world, _⟩ :=
    (applied_clean.of_ok applied clean).frame rfl (fun _ _ => rfl) (List.Subset.refl _)
  have silent : resumptions changed.world.log = resumptions s.world.log :=
    applied_resumptions.of_ok applied
  obtain ⟨new, log, ran⟩ := contAllAndSetBps_resumptions (k := k) keeps changed.noted.globalState
    changed.noted.world
  refine ⟨new, ?_, fun run member x inText => ?_⟩
  · rw [resumed]
    exact log.trans (congrArg (new ++ ·) silent)
  · rw [ran run member x inText, prepareForRun_text keeps armed increasing prepared inText]
    have enabled : x ∈ changed.noted.globalState.enabledAddrs ↔ (x, true) ∈ t.softwareTable := by
      rw [resumed]
      exact mem_enabledAddrs_of_agrees agrees x
    have marked : t.softwareTable.any (· = (x, true)) = true ↔ (x, true) ∈ t.softwareTable := by
      simp only [List.any_eq_true, decide_eq_true_eq, exists_eq_right]
    simp only [Debugger.marked, marked, enabled]

/-! ### Whole runs -/

theorem command_careful (keeps : k.KeepsText text) (spells : SpellsText own text u)
    {command : Command} (careful : Careful k own text s command)
    (kept : SoftwareKept s ∧ s.Clean own text) :
    SoftwareKept (stateAfter (command.program k u) s) ∧
      (stateAfter (command.program k u) s).Clean own text := by
  refine ⟨program_softwareKept careful.1 kept.1, ?_⟩
  have tidy : Tidy own text (s, true) := ⟨kept.2, by simp⟩
  exact (command_tidy keeps spells tidy careful.2).clean

end Libdebug.Ptrace
