import Libdebug.Foundation.Scopes
import Mathlib.Tactic.SplitIfs

/-!
`libcontext.py`: the settings of the library, the loggers they drive, and temporary contexts.

The level of a logger is kept twice, as a name in the context and as a number in the logger.
`tmp` applies its keywords one by one before the protected region begins, so that a refused value
leaves the earlier ones in place, and its end puts every field back but sets the levels of the
debugger and the pipe logger only.
-/

namespace Libdebug.Utils.Libcontext

open Libdebug.Foundation

/-! ### Values and levels -/

inductive Value where
  | int (number : Int)
  | str (text : String)
  | list (texts : List String)
  deriving DecidableEq, Repr

inductive Error where
  | valueError (message : String)
  | typeError (message : String)
  | runtimeError (message : String)
  /-- Another exception, raised by the code around the context -/
  | other (message : String)
  deriving DecidableEq, Repr

/-- The levels of `logging`, with the one that `liblog.py` adds -/
def nameToLevel : String → Option Nat
  | "CRITICAL" | "FATAL" => some 50
  | "ERROR" => some 40
  | "WARN" | "WARNING" => some 30
  | "INFO" => some 20
  | "DEBUG" => some 10
  | "NOTSET" => some 0
  | "SILENT" => some 60
  | _ => none

inductive Logger where
  | general
  | debugger
  | pipe
  deriving DecidableEq, Repr

def Logger.name : Logger → String
  | .general => "general_logger"
  | .debugger => "debugger_logger"
  | .pipe => "pipe_logger"

/-- `_general_logger_levels`, `_debugger_logger_levels` and `_pipe_logger_levels` -/
def Logger.levels : Logger → List String
  | .general => ["DEBUG", "INFO", "WARNING", "SILENT"]
  | .debugger => ["DEBUG", "SILENT"]
  | .pipe => ["DEBUG", "SILENT"]

/-! ### The context and the loggers -/

/-- The fields of `LibContext` that change; the lists of levels are `Logger.levels`. -/
structure LibContext where
  symLvl : Int
  debuggerLogger : String
  pipeLogger : String
  generalLogger : String
  arch : String
  terminal : Value
  deriving DecidableEq, Repr

/-- The effective levels of the loggers of `liblog` -/
structure Loggers where
  general : Nat
  debugger : Nat
  pipe : Nat
  deriving DecidableEq, Repr

structure World where
  context : LibContext
  loggers : Loggers
  deriving DecidableEq, Repr

def LibContext.recorded (context : LibContext) : Logger → String
  | .general => context.generalLogger
  | .debugger => context.debuggerLogger
  | .pipe => context.pipeLogger

def LibContext.record (context : LibContext) (level : String) : Logger → LibContext
  | .general => { context with generalLogger := level }
  | .debugger => { context with debuggerLogger := level }
  | .pipe => { context with pipeLogger := level }

def Loggers.effective (loggers : Loggers) : Logger → Nat
  | .general => loggers.general
  | .debugger => loggers.debugger
  | .pipe => loggers.pipe

def Loggers.change (loggers : Loggers) (level : Nat) : Logger → Loggers
  | .general => { loggers with general := level }
  | .debugger => { loggers with debugger := level }
  | .pipe => { loggers with pipe := level }

/-- `Logger.setLevel` -/
def setLevel (logger : Logger) (name : String) : EStateM Error World Unit :=
  match nameToLevel name with
  | some level => modify fun world => { world with loggers := world.loggers.change level logger }
  | none => throw (.valueError s!"Unknown level: '{name}'")

/-! ### The setters -/

def setSymLvl : Value → EStateM Error World Unit
  | .int value =>
      if 0 ≤ value ∧ value ≤ 5 then
        modify fun world => { world with context := { world.context with symLvl := value } }
      else throw (.valueError "sym_lvl must be between 0 and 5")
  | .str _ => throw (.typeError "'<=' not supported between instances of 'int' and 'str'")
  | .list _ => throw (.typeError "'<=' not supported between instances of 'int' and 'list'")

/-- A list of names as Python prints it -/
def reprNames (names : List String) : String :=
  "[" ++ ", ".intercalate (names.map fun name => "'" ++ name ++ "'") ++ "]"

def unsupported (logger : Logger) : Error :=
  .valueError (logger.name ++ " must be a supported logging level. The supported levels are: " ++
    reprNames logger.levels)

/-- The setters of the three loggers -/
def setLogger (logger : Logger) : Value → EStateM Error World Unit
  | .str level =>
      if level ∈ logger.levels then do
        modify fun world => { world with context := world.context.record level logger }
        setLevel logger level
      else throw (unsupported logger)
  | _ => throw (unsupported logger)

def setDebuggerLogger : Value → EStateM Error World Unit := setLogger .debugger

def setPipeLogger : Value → EStateM Error World Unit := setLogger .pipe

def setGeneralLogger : Value → EStateM Error World Unit := setLogger .general

def setArch (value : Value) : EStateM Error World Unit :=
  if value = .str "amd64" then
    modify fun world => { world with context := { world.context with arch := "amd64" } }
  else throw (.runtimeError "The specified architecture is not supported")

/-- A single text is stored as the list of it. -/
def asTerminal : Value → Value
  | .str text => .list [text]
  | value => value

def setTerminal (value : Value) : EStateM Error World Unit :=
  modify fun world => { world with context := { world.context with terminal := asTerminal value } }

/-- What can be set -/
inductive Setting where
  | symLvl
  | level (logger : Logger)
  | arch
  | terminal
  deriving DecidableEq, Repr

def Setting.name : Setting → String
  | .symLvl => "sym_lvl"
  | .level logger => logger.name
  | .arch => "arch"
  | .terminal => "terminal"

def Setting.set : Setting → Value → EStateM Error World Unit
  | .symLvl => setSymLvl
  | .level .debugger => setDebuggerLogger
  | .level .pipe => setPipeLogger
  | .level .general => setGeneralLogger
  | .arch => setArch
  | .terminal => setTerminal

/-! ### Temporary contexts -/

/-- `hasattr`, on keywords that are public: the name of a setting, or of nothing in the context -/
def Setting.ofName : String → Option Setting
  | "sym_lvl" => some .symLvl
  | "debugger_logger" => some (.level .debugger)
  | "pipe_logger" => some (.level .pipe)
  | "general_logger" => some (.level .general)
  | "arch" => some .arch
  | "terminal" => some .terminal
  | _ => none

/-- The body of the loop of `update` -/
def updateItem (item : String × Value) : EStateM Error World Unit :=
  match Setting.ofName item.1 with
  | some setting => setting.set item.2
  | none => pure ()

def update : List (String × Value) → EStateM Error World Unit
  | [] => pure ()
  | item :: rest => do
      updateItem item
      update rest

/-- Keyword arguments: every keyword is given once. -/
structure Kwargs where
  items : List (String × Value)
  distinct : (items.map Prod.fst).Nodup

/-- The `finally` of `tmp` -/
def restore (oldContext : LibContext) : EStateM Error World Unit := do
  modify fun world => { world with context := oldContext }
  setLevel .debugger (← get).context.debuggerLogger
  setLevel .pipe (← get).context.pipeLogger

/-- Setter calls and `tmp`, whose `old_context` is a copy of the fields -/
def libcontext : Scoping World (Setting × Value) Kwargs LibContext Error where
  step call := call.1.set call.2
  save world := world.context
  enter kwargs := update kwargs.items
  leave oldContext := restore oldContext

abbrev Program := ScopedProgram (Setting × Value) Kwargs Error

/-- The context and the loggers after the import, for the arguments of the script -/
def initial (argv : List String) : World :=
  let context : LibContext := ⟨3, "SILENT", "SILENT", "INFO", "amd64", .list []⟩
  let loggers : Loggers := ⟨20, 60, 60⟩
  if argv.length > 1 then
    if "debugger" ∈ argv then
      ⟨{ context with debuggerLogger := "DEBUG" }, { loggers with debugger := 10 }⟩
    else if "pipe" ∈ argv then
      ⟨{ context with pipeLogger := "DEBUG" }, { loggers with pipe := 10 }⟩
    else if "dbg" ∈ argv then
      ⟨{ context with debuggerLogger := "DEBUG", pipeLogger := "DEBUG", generalLogger := "DEBUG" },
        ⟨10, 10, 10⟩⟩
    else ⟨context, loggers⟩
  else ⟨context, loggers⟩

/-! ### Recorded and effective levels -/

/-- Each recorded level is the effective one of its logger. -/
def World.Agrees (world : World) : Prop :=
  ∀ logger, nameToLevel (world.context.recorded logger) = some (world.loggers.effective logger)

theorem initial_agrees (argv : List String) : (initial argv).Agrees := by
  intro logger
  unfold initial
  cases logger <;> dsimp only <;> split_ifs <;> rfl

theorem recorded_record (context : LibContext) (level : String) (changed logger : Logger) :
    (context.record level changed).recorded logger =
      if logger = changed then level else context.recorded logger := by
  cases changed <;> cases logger <;> rfl

theorem effective_change (loggers : Loggers) (level : Nat) (changed logger : Logger) :
    (loggers.change level changed).effective logger =
      if logger = changed then level else loggers.effective logger := by
  cases changed <;> cases logger <;> rfl

theorem agrees_of_recorded {world : World} {context : LibContext} (agrees : world.Agrees)
    (same : context.recorded = world.context.recorded) :
    World.Agrees { world with context := context } := by
  intro logger
  change nameToLevel (context.recorded logger) = _
  rw [same]
  exact agrees logger

theorem agrees_record {world : World} {logger : Logger} {name : String} {level : Nat}
    (agrees : world.Agrees) (named : nameToLevel name = some level) :
    World.Agrees ⟨world.context.record name logger, world.loggers.change level logger⟩ := by
  intro other
  simp only [recorded_record, effective_change]
  split_ifs with same
  · exact named
  · exact agrees other

/-- Every supported level has a number. -/
theorem level_of_supported {logger : Logger} {name : String} (supported : name ∈ logger.levels) :
    ∃ level, nameToLevel name = some level := by
  cases logger <;> simp only [Logger.levels, List.mem_cons, List.not_mem_nil, or_false] at supported
  · obtain rfl | rfl | rfl | rfl := supported <;> exact ⟨_, rfl⟩
  · obtain rfl | rfl := supported <;> exact ⟨_, rfl⟩
  · obtain rfl | rfl := supported <;> exact ⟨_, rfl⟩

theorem effective_inj {loggers other : Loggers} (same : loggers.effective = other.effective) :
    loggers = other := by
  cases loggers
  cases other
  have general := congrFun same .general
  have debugger := congrFun same .debugger
  have pipe := congrFun same .pipe
  simp only [Loggers.effective] at general debugger pipe
  rw [general, debugger, pipe]

/-- In worlds that agree, the context decides the levels. -/
theorem eq_of_context {world other : World} (agrees : world.Agrees) (otherAgrees : other.Agrees)
    (same : world.context = other.context) : world = other := by
  cases world with
  | mk context loggers =>
      cases other with
      | mk otherContext otherLoggers =>
          cases same
          have levels : loggers = otherLoggers := effective_inj <| by
            funext logger
            exact Option.some.inj ((agrees logger).symm.trans (otherAgrees logger))
          rw [levels]

/-! ### What the setters do -/

def Setting.get : Setting → LibContext → Value
  | .symLvl, context => .int context.symLvl
  | .level logger, context => .str (context.recorded logger)
  | .arch, context => .str context.arch
  | .terminal, context => context.terminal

/-- The checks of the setters -/
def Setting.accepts : Setting → Value → Bool
  | .symLvl, .int value => 0 ≤ value ∧ value ≤ 5
  | .level logger, .str text => text ∈ logger.levels
  | .arch, value => value = .str "amd64"
  | .terminal, _ => true
  | _, _ => false

/-- The value that a setter stores -/
def Setting.stored : Setting → Value → Value
  | .terminal, value => asTerminal value
  | _, value => value

theorem context_ext {context other : LibContext}
    (same : ∀ setting : Setting, setting.get context = setting.get other) : context = other := by
  cases context
  cases other
  have symLvl := same .symLvl
  have arch := same .arch
  have terminal := same .terminal
  have general := same (.level .general)
  have debugger := same (.level .debugger)
  have pipe := same (.level .pipe)
  simp only [Setting.get, LibContext.recorded, Value.int.injEq, Value.str.injEq] at *
  simp only [symLvl, arch, terminal, general, debugger, pipe]

/-- What a setter leaves when it accepts the value -/
structure Sets (setting : Setting) (value : Value) (world after : World) : Prop where
  agrees : after.Agrees
  own : setting.get after.context = setting.stored value
  others : ∀ other, other ≠ setting → other.get after.context = other.get world.context

section Setters

variable {world : World} {value : Value}

theorem setLogger_run {logger : Logger} {level : String} (supported : level ∈ logger.levels)
    (agrees : world.Agrees) :
    ∃ after, (setLogger logger (.str level)).run world = .ok () after ∧
      Sets (.level logger) (.str level) world after := by
  obtain ⟨number, named⟩ := level_of_supported supported
  refine ⟨⟨world.context.record level logger, world.loggers.change number logger⟩, ?_,
    agrees_record agrees named, ?_, ?_⟩
  · rw [setLogger, if_pos supported]
    simp only [setLevel, named]
    rfl
  · cases logger <;> rfl
  · intro other different
    cases other with
    | level other =>
        simp only [Setting.get, recorded_record]
        rw [if_neg fun same => different (congrArg Setting.level same)]
    | symLvl => cases logger <;> rfl
    | arch => cases logger <;> rfl
    | terminal => cases logger <;> rfl

theorem setLogger_refused {logger : Logger}
    (refused : (Setting.level logger).accepts value = false) :
    (setLogger logger value).run world = .error (unsupported logger) world := by
  cases value with
  | str level =>
      have foreign : level ∉ logger.levels := by simpa [Setting.accepts] using refused
      rw [setLogger, if_neg foreign]
      rfl
  | int number => rfl
  | list texts => rfl

/-- The setters of the loggers, by their logger -/
theorem set_logger (logger : Logger) : (Setting.level logger).set = setLogger logger := by
  cases logger <;> rfl

theorem set_accepted {setting : Setting} (accepted : setting.accepts value = true)
    (agrees : world.Agrees) :
    ∃ after, (setting.set value).run world = .ok () after ∧ Sets setting value world after := by
  cases setting with
  | symLvl =>
      cases value with
      | int number =>
          have bounds : 0 ≤ number ∧ number ≤ 5 := by simpa [Setting.accepts] using accepted
          refine ⟨{ world with context := { world.context with symLvl := number } }, ?_,
            agrees_of_recorded agrees rfl, rfl, ?_⟩
          · rw [Setting.set, setSymLvl, if_pos bounds]
            rfl
          · intro other different
            cases other <;> first | rfl | exact absurd rfl different
      | str text => exact (Bool.false_ne_true accepted).elim
      | list texts => exact (Bool.false_ne_true accepted).elim
  | level logger =>
      rw [set_logger]
      cases value with
      | str level =>
          have supported : level ∈ logger.levels := by simpa [Setting.accepts] using accepted
          exact setLogger_run supported agrees
      | int number => exact (Bool.false_ne_true accepted).elim
      | list texts => exact (Bool.false_ne_true accepted).elim
  | arch =>
      obtain rfl : value = .str "amd64" := by simpa [Setting.accepts] using accepted
      refine ⟨{ world with context := { world.context with arch := "amd64" } }, rfl,
        agrees_of_recorded agrees rfl, rfl, ?_⟩
      intro other different
      cases other <;> first | rfl | exact absurd rfl different
  | terminal =>
      refine ⟨{ world with context := { world.context with terminal := asTerminal value } }, rfl,
        agrees_of_recorded agrees rfl, rfl, ?_⟩
      intro other different
      cases other <;> first | rfl | exact absurd rfl different

theorem set_refused {setting : Setting} (world : World)
    (refused : setting.accepts value = false) :
    ∃ error, (setting.set value).run world = .error error world := by
  cases setting with
  | symLvl =>
      cases value with
      | int number =>
          have outside : ¬ (0 ≤ number ∧ number ≤ 5) := by simpa [Setting.accepts] using refused
          rw [Setting.set, setSymLvl, if_neg outside]
          exact ⟨_, rfl⟩
      | str text => exact ⟨_, rfl⟩
      | list texts => exact ⟨_, rfl⟩
  | level logger =>
      rw [set_logger]
      exact ⟨_, setLogger_refused refused⟩
  | arch =>
      have different : value ≠ .str "amd64" := by simpa [Setting.accepts] using refused
      rw [Setting.set, setArch, if_neg different]
      exact ⟨_, rfl⟩
  | terminal => simp [Setting.accepts] at refused

theorem set_agrees (setting : Setting) (value : Value) (agrees : world.Agrees) :
    (settledWorld ((setting.set value).run world)).Agrees := by
  cases accepts : setting.accepts value with
  | true =>
      obtain ⟨after, run, sets⟩ := set_accepted accepts agrees
      rw [run]
      exact sets.agrees
  | false =>
      obtain ⟨error, run⟩ := set_refused world accepts
      rw [run]
      exact agrees

end Setters

/-! ### What an update leaves -/

def acceptedItem (item : String × Value) : Bool :=
  (Setting.ofName item.1).all (·.accepts item.2)

/-- The context already has the value. -/
def Idle (item : String × Value) (context : LibContext) : Prop :=
  ∀ setting, Setting.ofName item.1 = some setting → setting.get context = setting.stored item.2

theorem ofName_inj {text : String} {setting : Setting}
    (named : Setting.ofName text = some setting) :
    text = setting.name := by
  unfold Setting.ofName at named
  split at named <;> cases named <;> rfl

theorem ofName_name (setting : Setting) : Setting.ofName setting.name = some setting := by
  cases setting with
  | level logger => cases logger <;> rfl
  | symLvl => rfl
  | arch => rfl
  | terminal => rfl

section Updates

variable {world : World} {item : String × Value} {rest : List (String × Value)}

theorem updateItem_accepted (accepted : acceptedItem item = true) (agrees : world.Agrees) :
    ∃ after, (updateItem item).run world = .ok () after ∧ after.Agrees ∧
      Idle item after.context ∧
      ∀ setting : Setting, setting.name ≠ item.1 →
        setting.get after.context = setting.get world.context := by
  unfold acceptedItem at accepted
  unfold updateItem Idle
  cases named : Setting.ofName item.1 with
  | none =>
      refine ⟨world, rfl, agrees, ?_, fun _ _ => rfl⟩
      intro setting impossible
      cases impossible
  | some setting =>
      rw [named] at accepted
      obtain ⟨after, run, sets⟩ := set_accepted accepted agrees
      refine ⟨after, run, sets.agrees, ?_, ?_⟩
      · intro other same
        cases same
        exact sets.own
      · intro other different
        refine sets.others other ?_
        rintro rfl
        exact different (ofName_inj named).symm

theorem updateItem_refused (world : World) (refused : acceptedItem item = false) :
    ∃ error, (updateItem item).run world = .error error world := by
  unfold acceptedItem at refused
  unfold updateItem
  cases named : Setting.ofName item.1 with
  | none =>
      rw [named] at refused
      cases refused
  | some setting =>
      rw [named] at refused
      exact set_refused world refused

theorem update_cons_accepted {after : World} (run : (updateItem item).run world = .ok () after) :
    (update (item :: rest)).run world = (update rest).run after := by
  rw [update, EStateM.run_bind, run]

theorem update_cons_refused {error : Error}
    (run : (updateItem item).run world = .error error world) :
    (update (item :: rest)).run world = .error error world := by
  rw [update, EStateM.run_bind, run]

/-- An update keeps the settings that it does not name, and the values before the first one that
is refused are stored. -/
theorem update_leaves {items : List (String × Value)} (agrees : world.Agrees)
    (distinct : (items.map Prod.fst).Nodup) :
    (settledWorld ((update items).run world)).Agrees ∧
      (∀ setting : Setting, setting.name ∉ items.map Prod.fst →
        setting.get (settledWorld ((update items).run world)).context =
          setting.get world.context) ∧
      ∀ item ∈ items.takeWhile acceptedItem,
        Idle item (settledWorld ((update items).run world)).context := by
  induction items generalizing world with
  | nil =>
      refine ⟨agrees, fun _ _ => rfl, ?_⟩
      intro item member
      cases member
  | cons item rest ih =>
      rw [List.map_cons, List.nodup_cons] at distinct
      cases accepted : acceptedItem item with
      | false =>
          obtain ⟨error, run⟩ := updateItem_refused world accepted
          rw [update_cons_refused run, List.takeWhile_cons, accepted]
          refine ⟨agrees, fun _ _ => rfl, ?_⟩
          intro item member
          cases member
      | true =>
          obtain ⟨after, run, afterAgrees, stored, others⟩ := updateItem_accepted accepted agrees
          obtain ⟨finalAgrees, keeps, idle⟩ := ih afterAgrees distinct.2
          rw [update_cons_accepted run, List.takeWhile_cons, accepted, if_pos rfl]
          refine ⟨finalAgrees, ?_, ?_⟩
          · intro setting unnamed
            rw [List.map_cons, List.mem_cons, not_or] at unnamed
            rw [keeps setting unnamed.2, others setting unnamed.1]
          · intro other member
            obtain rfl | member := List.mem_cons.mp member
            · -- The rest does not name the setting again.
              intro setting named
              rw [keeps setting (ofName_inj named ▸ distinct.1)]
              exact stored setting named
            · exact idle other member

/-- An update whose values before the first refused one are all stored already changes nothing. -/
theorem update_idle {items : List (String × Value)} (agrees : world.Agrees)
    (idle : ∀ item ∈ items.takeWhile acceptedItem, Idle item world.context) :
    settledWorld ((update items).run world) = world := by
  induction items with
  | nil => rfl
  | cons item rest ih =>
      cases accepted : acceptedItem item with
      | false =>
          obtain ⟨error, run⟩ := updateItem_refused world accepted
          rw [update_cons_refused run]
          rfl
      | true =>
          rw [List.takeWhile_cons, accepted, if_pos rfl, List.forall_mem_cons] at idle
          obtain ⟨after, run, afterAgrees, stored, others⟩ := updateItem_accepted accepted agrees
          have unchanged : after = world := eq_of_context afterAgrees agrees <| by
            refine context_ext fun setting => ?_
            by_cases named : Setting.ofName item.1 = some setting
            · rw [stored setting named, idle.1 setting named]
            · exact others setting fun same => named (same ▸ ofName_name setting)
          rw [update_cons_accepted run, unchanged]
          exact ih idle.2

end Updates

/-! ### Blocks -/

/-- Before the first refused value, every keyword already has its value. -/
def FailsIdly (kwargs : Kwargs) (before : World) : Prop :=
  ∀ item ∈ kwargs.items.takeWhile acceptedItem, Idle item before.context

/-- At the end of a block, the level of the general logger is what it was before. -/
def GeneralKept (before ending : World) : Prop := ending.loggers.general = before.loggers.general

/-- At every block that is entered with a refused value the accepted ones change nothing, and
every other block ends with the level of the general logger that it has found. -/
def Careful (program : Program) (world : World) : Prop :=
  libcontext.Along FailsIdly GeneralKept program world

/-- `restore` gives back the context and the levels of two of the loggers. -/
theorem restore_run {before world : World} (agrees : before.Agrees) :
    (restore before.context).run world =
      .ok () ⟨before.context, { before.loggers with general := world.loggers.general }⟩ := by
  have debugger : nameToLevel before.context.debuggerLogger = some before.loggers.debugger :=
    agrees .debugger
  have pipe : nameToLevel before.context.pipeLogger = some before.loggers.pipe := agrees .pipe
  unfold restore
  simp only [EStateM.run_bind, EStateM.run_modify, EStateM.run_get, setLevel, debugger, pipe]
  rfl

theorem libcontext_lawful : libcontext.Lawful World.Agrees FailsIdly GeneralKept where
  step call world agrees := set_agrees call.1 call.2 agrees
  enter kwargs world agrees := (update_leaves agrees kwargs.distinct).1
  failing_iff kwargs before error world agrees failed := by
    have final : settledWorld ((update kwargs.items).run before) = world := by
      change settledWorld ((libcontext.enter kwargs).run before) = world
      rw [failed]
      rfl
    constructor
    · rintro rfl
      have idle := (update_leaves agrees kwargs.distinct).2.2
      rw [final] at idle
      exact idle
    · intro idle
      rw [← final]
      exact update_idle agrees idle
  kept_iff before world agrees := by
    change settledWorld ((restore before.context).run world) = before ↔ _
    rw [restore_run agrees]
    constructor
    · intro back
      have levels := congrArg (fun final : World => final.loggers.general) back
      exact levels
    · intro kept
      unfold GeneralKept at kept
      change World.mk before.context { before.loggers with general := world.loggers.general } = _
      rw [kept]

/-- `with libcontext.tmp(general_logger="DEBUG"): pass` -/
def generalDebug : Program := .block ⟨[("general_logger", .str "DEBUG")], by decide⟩ .skip

end Libdebug.Utils.Libcontext
