import LS8.Command.Perform
import LS8.Proofs.Faults
import LS8.Proofs.Reports
import LS8.Proofs.Sessions

set_option autoImplicit false

namespace LS8

namespace Engine

/--
How a run can end of an engine that has not halted before. At a fault it leaves the machine on
which the next instruction fails.
-/
inductive Ended (engine : Engine) : Except (Failure Fault) HaltReason → Prop
  | hlt : Ended engine (.ok .hlt)
  | endOfProgram : Ended engine (.ok .endOfProgram)
  | faulted (trap : Trap) (failed : engine.machine.transition = .error trap) :
      Ended engine (.error (.raised ⟨engine.machine.pc, trap⟩))

variable {engine : Engine}

theorem ended_of_tick {result : Except (Failure Fault) HaltReason}
    (running : engine.state = .running)
    (final : concluded? (tick.run engine).result = some result) :
    Ended (tick.run engine).state result := by
  have seen := ticked engine
  generalize tick.run engine = outcome at seen final ⊢
  cases seen with
  | halted reason stopped => simp [running] at stopped
  | ended running past =>
      cases final
      exact .endOfProgram
  | trapped trap running inside failed =>
      cases final
      exact .faulted trap failed
  | retired done running inside completed =>
      rcases done.inst.flow_eq with flow | flow
      · simp [concluded?, Retirement.state, flow] at final
      · simp only [concluded?, Retirement.state, flow, Option.some.injEq] at final
        exact final ▸ .hlt

theorem ended_of_run (running : engine.state = .running) :
    Ended (run.run engine).state (run.run engine).result := by
  induction engine using run_induction with
  | last engine result final =>
      rw [run_concluded final]
      exact ended_of_tick running final
  | next engine going ih =>
      rw [run_running going]
      exact ih (state_of_tick_running going)

theorem snapshots_tick (running : engine.state = .running) :
    snapshots (tick.run engine).emitted =
      if engine.tracing ∧ engine.machine.pc < engine.machine.programEnd then
        [Snapshot.ofMachine engine.machine]
      else [] := by
  have seen := ticked engine
  generalize tick.run engine = outcome at seen ⊢
  cases seen with
  | halted reason stopped => simp [running] at stopped
  | ended running past => simp [Nat.not_lt.mpr past]
  | trapped trap running inside failed => simp [inside]
  | retired done running inside completed => simp [inside]

theorem snapshots_run_ne_nil (running : engine.state = .running) :
    snapshots (run.run engine).emitted ≠ [] ↔
      engine.tracing = true ∧ engine.machine.pc < engine.machine.programEnd := by
  induction engine using run_induction with
  | last engine result final =>
      rw [run_concluded final, snapshots_tick running]
      simp
  | next engine going ih =>
      have inside := (pc_lt_of_tick_running going).1
      have later := ih (state_of_tick_running going)
      rw [tracing_tick engine] at later
      rw [run_running going, snapshots_append, snapshots_tick running]
      cases traced : engine.tracing with
      | true => simp [inside]
      | false => simpa [traced] using later

structure Counted (bound : Nat) (engine : Engine) : Prop where
  complete : engine.tally.categories = engine.tally.retired
  few : engine.tally.retired + engine.remaining ≤ bound

theorem Counted.tick {bound : Nat} (counted : Counted bound engine) :
    Counted bound (tick.run engine).state where
  complete := by
    have seen := ticked engine
    generalize Engine.tick.run engine = outcome at seen ⊢
    cases seen with
    | halted reason stopped => exact counted.complete
    | ended running past => exact counted.complete
    | trapped trap running inside failed => exact counted.complete
    | retired done running inside completed =>
        simp only [retire, Tally.categories_record, Tally.retired_record, counted.complete]
  few := Nat.le_trans (retired_add_remaining_of_tick engine) counted.few

theorem counted_loaded {image : List UInt8} (fits : image.length ≤ memorySize)
    (settings : Settings) :
    Counted memorySize ((ofSettings settings).loaded image (Nat.lt_succ_of_le fits)) where
  complete := rfl
  few := by
    change 0 + (image.length - settings.startPc.toNat) ≤ memorySize
    omega

theorem Counted.retired_le {bound : Nat} (counted : Counted bound engine) :
    engine.tally.retired ≤ bound :=
  Nat.le_trans (Nat.le_add_right ..) counted.few

theorem Counted.run {bound : Nat} (counted : Counted bound engine) :
    Counted bound (run.run engine).state :=
  invariant_run (fun _ => Counted.tick) counted

end Engine

theorem Program.length_le_of_parse {text : String} {image : List UInt8}
    (parsed : parse text = .ok image) : image.length ≤ memorySize := by
  obtain ⟨bytes, -, checked⟩ := exists_of_bind_eq_ok parsed
  unfold checkSize at checked
  split at checked
  · cases checked
  next fits =>
    cases checked
    exact Nat.le_of_not_lt fits

namespace Operation

variable {engine : Engine}

theorem reply_run_finished {reason : HaltReason} :
    (run.perform engine).reply = .finished reason ↔
      (Engine.run.run engine).result = .ok reason := by
  rw [perform, answer]
  rcases (Engine.run.run engine).result with (fault | defect) | reached <;> simp [failed]

theorem reply_run_faulted {fault : Fault} :
    (run.perform engine).reply = .faulted fault ↔
      (Engine.run.run engine).result = .error (.raised fault) := by
  rw [perform, answer]
  rcases (Engine.run.run engine).result with (raised | defect) | reason <;> simp [failed]

end Operation

namespace Command

inductive Configures (storage : Storage) : Option String → Settings → Prop
  | unnamed : Configures storage none {}
  | named {path text : String} {settings : Settings} (read : storage.readText path = .ok text)
      (spelled : Settings.parse? text = some settings) :
      Configures storage (some path) settings

inductive Misconfigures (explain : String → String) (storage : Storage) (path : String) :
    String → Prop
  | unreadable {cause : String} (read : storage.readText path = .error cause) :
      Misconfigures explain storage path ("could not read config '" ++ path ++ "': " ++ cause)
  | invalid {text : String} (read : storage.readText path = .ok text)
      (unspelled : Settings.parse? text = none) :
      Misconfigures explain storage path ("invalid config: " ++ explain text)

def Provides (storage : Storage) (path : String) (image : List UInt8) : Prop :=
  ∃ text, storage.readText path = .ok text ∧ Program.parse text = .ok image

inductive Withholds (storage : Storage) (path : String) : String → Prop
  | unreadable {cause : String} (read : storage.readText path = .error cause) :
      Withholds storage path ("could not read '" ++ path ++ "': " ++ cause)
  | rejected {text : String} {error : LoadError} (read : storage.readText path = .ok text)
      (refused : Program.parse text = .error error) : Withholds storage path error.text

section Sources

variable {explain : String → String} {storage : Storage}

theorem configures_named_iff {path : String} {settings : Settings} :
    Configures storage (some path) settings ↔
      Settings.ofFile explain storage path = .ok settings := by
  constructor
  · intro configured
    cases configured with
    | named read spelled =>
        simp only [Settings.ofFile, Settings.ofText, read, spelled]
        rfl
  · intro found
    simp only [Settings.ofFile, Settings.ofText] at found
    split at found
    next text read =>
      split at found
      next spelled =>
        cases found
        exact .named read spelled
      · cases found
    · cases found

theorem misconfigures_of_error {path : String} {error : SettingsError}
    (failed : Settings.ofFile explain storage path = .error error) :
    Misconfigures explain storage path error.text := by
  simp only [Settings.ofFile, Settings.ofText] at failed
  split at failed
  next text read =>
    split at failed
    · cases failed
    next unspelled =>
      cases failed
      exact .invalid read unspelled
  next cause read =>
    cases failed
    exact .unreadable read

theorem settings_of_configures {options : RunOptions} {base : Settings}
    (configured : Configures storage options.config base) :
    options.settings explain storage = .ok (options.adjust base) := by
  unfold RunOptions.settings
  cases named : options.config with
  | none =>
      rw [named] at configured
      cases configured
      rfl
  | some path =>
      rw [named] at configured
      simp only [configures_named_iff.mp configured, ok_map]

theorem provides_iff {path : String} {image : List UInt8} :
    Provides storage path image ↔ Program.ofFile storage path = .ok image := by
  unfold Provides Program.ofFile
  cases storage.readText path <;> simp

theorem withholds_of_error {path : String} {error : LoadError}
    (failed : Program.ofFile storage path = .error error) :
    Withholds storage path error.text := by
  unfold Program.ofFile at failed
  split at failed
  next text read => exact .rejected read failed
  next cause read =>
    cases failed
    exact .unreadable read

theorem runProgram_of_not_configures {options : RunOptions}
    (missing : ¬∃ base, Configures storage options.config base) :
    ∃ path message, options.config = some path ∧ Misconfigures explain storage path message ∧
      runProgram explain storage options = fatal [] message := by
  unfold runProgram RunOptions.settings
  cases named : options.config with
  | none => exact absurd ⟨{}, named ▸ .unnamed⟩ missing
  | some path =>
      cases found : Settings.ofFile explain storage path with
      | ok base => exact absurd ⟨base, named ▸ configures_named_iff.mpr found⟩ missing
      | error error =>
          refine ⟨path, error.text, rfl, misconfigures_of_error found, ?_⟩
          simp only [found, error_map]

theorem runProgram_of_not_provides {options : RunOptions} {base : Settings}
    (configured : Configures storage options.config base)
    (missing : ¬∃ image, Provides storage options.file image) :
    ∃ message, Withholds storage options.file message ∧
      runProgram explain storage options = fatal [] message := by
  cases found : Program.ofFile storage options.file with
  | ok image => exact absurd ⟨image, provides_iff.mpr found⟩ missing
  | error error =>
      refine ⟨error.text, withholds_of_error found, ?_⟩
      simp only [runProgram, settings_of_configures configured, found]

theorem runProgram_of_provides {options : RunOptions} {base : Settings} {image : List UInt8}
    (configured : Configures storage options.config base)
    (provided : Provides storage options.file image) :
    runProgram explain storage options = runImage options (options.adjust base) image := by
  simp only [runProgram, settings_of_configures configured, provides_iff.mp provided]

end Sources

def consoleText (lines : List String) : String :=
  String.join (lines.map fun line => line ++ "\n")

theorem consoleText_append (before after : List String) :
    consoleText (before ++ after) = consoleText before ++ consoleText after := by
  simp [consoleText]

theorem consoleText_printed (values : List UInt8) :
    consoleText (values.map fun value => Numeral.decimal value.toNat) = outputText values := by
  rw [consoleText, List.map_map]
  rfl

theorem standardOutput_append (microseconds : Nat) (before after : List Output) :
    standardOutput microseconds (before ++ after) =
      standardOutput microseconds before ++ standardOutput microseconds after :=
  List.flatMap_append ..

theorem standardError_append (before after : List Output) :
    standardError (before ++ after) = standardError before ++ standardError after :=
  List.filterMap_append

def runOutputs (options : RunOptions) (image : List UInt8) (emitted : List Emission)
    (ended : Engine) : List Output :=
  [parsed options.file image] ++ emitted.map .ofEmission ++ statisticsIf options.stats ended

section Runs

variable (options : RunOptions) (image : List UInt8) (emitted : List Emission) (ended : Engine)

theorem consoleText_runOutputs (microseconds : Nat) :
    consoleText (standardOutput microseconds (runOutputs options image emitted ended)) =
      outputText (printedValues emitted) ++
        consoleText (if options.stats then ended.tally.report microseconds else []) := by
  have report : standardOutput microseconds (statisticsIf options.stats ended) =
      if options.stats then ended.tally.report microseconds else [] := by
    cases wanted : options.stats with
    | true => exact List.append_nil _
    | false => rfl
  rw [runOutputs, standardOutput_append, standardOutput_append, standardOutput_of_emitted, report,
    consoleText_append, consoleText_append, consoleText_printed]
  rfl

theorem standardError_runOutputs :
    standardError (runOutputs options image emitted ended) =
      (snapshots emitted).map Snapshot.text := by
  have quiet : standardError (statisticsIf options.stats ended) = [] := by
    cases options.stats <;> rfl
  rw [runOutputs, standardError_append, standardError_append, standardError_of_emitted, quiet]
  simp [parsed, standardError, Output.errorLine?]

end Runs

section Session

variable (settings : Settings) {image : List UInt8} (fits : image.length ≤ memorySize)

include fits

theorem runImage_eq (options : RunOptions) :
    let loading := (Operation.load image).perform (.ofSettings settings)
    let running := Operation.run.perform loading.engine
    runImage options settings image =
      finishRun
        (runOutputs options image (loading.emitted ++ running.emitted) running.engine)
        running.engine (Engine.run.run loading.engine).result := by
  intro loading running
  have loaded : loading = _ := Operation.perform_load fits _
  simp only [runImage, Engine.run_load fits, running, Operation.perform,
    Operation.engine_answer, Operation.emitted_answer, loaded, runOutputs, List.map_append,
    List.append_assoc]
  rfl

theorem snapshots_session_ne_nil :
    let loading := (Operation.load image).perform (.ofSettings settings)
    let running := Operation.run.perform loading.engine
    snapshots (loading.emitted ++ running.emitted) ≠ [] ↔
      settings.traceInstructions = true ∧ settings.startPc.toNat < image.length := by
  intro loading running
  have loaded : loading = _ := Operation.perform_load fits _
  have started : loading.engine.state = .running := by
    rw [loaded]
    rfl
  have silent : snapshots loading.emitted = [] := by
    rw [loaded]
    rfl
  have shows := Engine.snapshots_run_ne_nil started
  simp only [Engine.snapshots_append, silent, List.nil_append, running, Operation.perform,
    Operation.emitted_answer]
  rw [loaded] at shows ⊢
  exact shows

end Session

section Finish

variable (outputs : List Output) {ended : Engine} {result : Except (Failure Fault) HaltReason}

theorem standardOutput_finishRun (microseconds : Nat) :
    standardOutput microseconds (finishRun outputs ended result).outputs =
      standardOutput microseconds outputs := by
  rcases result with (fault | defect) | reason <;>
    simp [finishRun, fatal, standardOutput, Output.lines]

theorem finishRun_of_ended (ends : Engine.Ended ended result) :
    let completion := finishRun outputs ended result
    (completion.status = 0 ↔ result = .ok .hlt ∨ result = .ok .endOfProgram) ∧
    (completion.status = 0 → standardError completion.outputs = standardError outputs) ∧
    (completion.status ≠ 0 →
      completion.status = 1 ∧
      ∃ fault, result = .error (.raised fault) ∧
        fault.pc = ended.machine.pc ∧ ended.machine.transition = .error fault.trap ∧
        completion.outputs = outputs ++
          [.err ended.machine.registers.dump, .err ("[!] FATAL: " ++ fault.text)]) := by
  have logged (reason : HaltReason) : standardError [.log (.runFinished reason)] = [] := rfl
  cases ends with
  | hlt => simp [finishRun, standardError_append, logged]
  | endOfProgram => simp [finishRun, standardError_append, logged]
  | faulted trap failed => simp [finishRun, fatal, failed]

end Finish

theorem run_command_follows_library (explain : String → String) (storage : Storage)
    (options : RunOptions) (verbose : Bool) (microseconds : Nat) :
    let completion := (Request.run options verbose).perform explain storage
    let lines := standardOutput microseconds completion.outputs
    ((¬∃ base, Configures storage options.config base) →
      ∃ path message, options.config = some path ∧ Misconfigures explain storage path message ∧
        completion = ⟨[.err ("[!] FATAL: " ++ message)], 1⟩ ∧ lines = []) ∧
    (∀ base, Configures storage options.config base →
      (¬∃ image, Provides storage options.file image) →
        ∃ message, Withholds storage options.file message ∧
          completion = ⟨[.err ("[!] FATAL: " ++ message)], 1⟩ ∧ lines = []) ∧
    (∀ base image, Configures storage options.config base →
      Provides storage options.file image →
        let settings : Settings :=
          { traceInstructions := base.traceInstructions || options.trace
            startPc := options.startPc.getD base.startPc
            placement := options.placement.getD base.placement
            stackTop := base.stackTop }
        let loading := (Operation.load image).perform (.ofSettings settings)
        let running := Operation.run.perform loading.engine
        let emitted := loading.emitted ++ running.emitted
        let ended := running.engine
        loading.reply = .done ∧
        consoleText lines = outputText (printedValues emitted) ++
          consoleText (if options.stats then ended.tally.report microseconds else []) ∧
        ended.tally.Shown microseconds (ended.tally.report microseconds) ∧
        (snapshots emitted ≠ [] ↔
          settings.traceInstructions = true ∧ settings.startPc.toNat < image.length) ∧
        (completion.status = 0 ↔
          running.reply = .finished .hlt ∨ running.reply = .finished .endOfProgram) ∧
        (completion.status = 0 →
          standardError completion.outputs = (snapshots emitted).map Snapshot.text) ∧
        (completion.status ≠ 0 →
          completion.status = 1 ∧
          ∃ fault before, running.reply = .faulted fault ∧
            fault.pc = ended.machine.pc ∧ ended.machine.transition = .error fault.trap ∧
            standardError before = (snapshots emitted).map Snapshot.text ∧
            completion.outputs = before ++
              [.err ended.machine.registers.dump, .err ("[!] FATAL: " ++ fault.text)])) := by
  intro completion lines
  have performed : completion = runProgram explain storage options := rfl
  refine ⟨?_, ?_, ?_⟩
  · intro missing
    obtain ⟨path, message, named, failed, ended⟩ := runProgram_of_not_configures missing
    rw [← performed] at ended
    exact ⟨path, message, named, failed, ended, by simp only [lines, ended]; rfl⟩
  · intro base configured missing
    obtain ⟨message, failed, ended⟩ := runProgram_of_not_provides configured missing
    rw [← performed] at ended
    exact ⟨message, failed, ended, by simp only [lines, ended]; rfl⟩
  · intro base image configured provided settings loading running emitted ended
    have fits : image.length ≤ memorySize := by
      obtain ⟨text, -, spelled⟩ := provided
      exact Program.length_le_of_parse spelled
    have placed : loading = _ := Operation.perform_load fits _
    have started : loading.engine.state = .running := by
      rw [placed]
      rfl
    have ran : completion = finishRun (runOutputs options image emitted ended) ended
        (Engine.run.run loading.engine).result := by
      rw [performed, runProgram_of_provides configured provided]
      exact runImage_eq settings fits options
    have reached : ended = (Engine.run.run loading.engine).state := Operation.engine_answer ..
    have counted : ended.Counted memorySize := by
      rw [reached, placed]
      exact (Engine.counted_loaded fits _).run
    have ends := Engine.ended_of_run started
    rw [← reached] at ends
    obtain ⟨succeeds, quiet, faults⟩ :=
      finishRun_of_ended (runOutputs options image emitted ended) ends
    rw [← ran] at succeeds quiet faults
    rw [standardError_runOutputs] at quiet
    refine ⟨by rw [placed], ?_, ?_, snapshots_session_ne_nil settings fits, ?_, quiet, ?_⟩
    · simp only [lines, ran]
      rw [standardOutput_finishRun, consoleText_runOutputs]
    · exact Tally.shown_report counted.complete (counted.retired_le.trans (by decide)) microseconds
    · rw [Operation.reply_run_finished, Operation.reply_run_finished]
      exact succeeds
    · intro failed
      obtain ⟨status, fault, raised, pc, trapped, outputs⟩ := faults failed
      exact ⟨status, fault, _, Operation.reply_run_faulted.mpr raised, pc, trapped,
        standardError_runOutputs .., outputs⟩

-- Settings that are empty, a program that is missing, and one that pops from an empty stack.
theorem run_command_follows_library_to_fault :
    let program := "10000010\n0\n101\n1000111\n0\n1000110\n1"
    let storage : Storage := fun path =>
      match path with
      | "blank" => .ok "".toUTF8
      | "settings" => .ok "[[true]]".toUTF8
      | "program" => .ok program.toUTF8
      | _ => .error "no such file"
    let explain : String → String := fun _ => "EOF while parsing a value at line 1 column 0"
    let run (config file : String) : Completion :=
      (Request.run
        { file := file, config := some config, stats := true, placement := some .ram }
        false).perform explain storage
    let faulted := run "settings" "program"
    run "blank" "nowhere" =
      ⟨[.err "[!] FATAL: invalid config: EOF while parsing a value at line 1 column 0"], 1⟩ ∧
    run "settings" "nowhere" =
      ⟨[.err "[!] FATAL: could not read 'nowhere': no such file"], 1⟩ ∧
    consoleText (standardOutput 1500000 faulted.outputs) = consoleText
      ["5",
        "",
        "==========================================================",
        "LS-8 RUN STATISTICS",
        "==========================================================",
        "host_seconds             1.500000 s",
        "sim_insts                2",
        "----------------------------------------------------------",
        "INSTRUCTION MIX",
        "  op.alu                 0 (0.00%)",
        "  op.load                1 (50.00%)",
        "  op.io                  1 (50.00%)",
        "  op.stack               0 (0.00%)",
        "  op.system              0 (0.00%)",
        "----------------------------------------------------------",
        "stack.max_depth          0",
        "=========================================================="] ∧
    faulted.status = 1 ∧
    ∃ before,
      standardError before =
        ["TRACE: 00 | 82 00 05 | 00 00 00 00 00 00 00 F4",
          "TRACE: 03 | 47 00 46 | 05 00 00 00 00 00 00 F4",
          "TRACE: 05 | 46 01 00 | 05 00 00 00 00 00 00 F4"] ∧
      faulted.outputs = before ++
        [.err "R0=05 R1=00 R2=00 R3=00 R4=00 R5=00 R6=00 R7=F4",
          .err "[!] FATAL: fault at pc 0x05: StackUnderflow"] := by
  intro program storage explain run faulted
  have follows (config file : String) :=
    run_command_follows_library explain storage
      { file := file, config := some config, stats := true, placement := some .ram } false 1500000
  have readBlank : storage.readText "blank" = .ok "" := by decide +kernel
  have readProgram : storage.readText "program" = .ok program := by decide +kernel
  have readSettings : storage.readText "settings" = .ok "[[true]]" := by decide +kernel
  have configured : Configures storage (some "settings") { traceInstructions := true } :=
    .named readSettings (by decide +kernel)
  refine ⟨?_, ?_, ?_⟩
  · have missing : ¬∃ base, Configures storage (some "blank") base := by
      rintro ⟨base, configured⟩
      cases configured with
      | named read spelled =>
          rw [readBlank] at read
          cases read
          have nothing : Settings.parse? "" = none := by decide +kernel
          cases nothing.symm.trans spelled
    obtain ⟨path, message, named, failed, completed, -⟩ := (follows "blank" "nowhere").1 missing
    cases named
    cases failed with
    | unreadable read => cases readBlank.symm.trans read
    | invalid read unspelled => exact completed
  · have missing : ¬∃ image, Provides storage "nowhere" image := by
      rintro ⟨image, text, read, -⟩
      cases read
    obtain ⟨message, failed, completed, -⟩ :=
      (follows "settings" "nowhere").2.1 _ configured missing
    cases failed with
    | unreadable read =>
        cases read
        exact completed
    | rejected read refused => cases read
  · have provided : Provides storage "program" [0x82, 0, 5, 0x47, 0, 0x46, 1] :=
      ⟨program, readProgram, by decide +kernel⟩
    obtain ⟨-, output, -, -, succeeds, -, faults⟩ :=
      (follows "settings" "program").2.2 _ _ configured provided
    have failed : faulted.status ≠ 0 := by
      intro success
      exact absurd (succeeds.mp success) (by decide +kernel)
    obtain ⟨status, fault, before, reply, -, -, traced, outputs⟩ := faults failed
    have same : fault = ⟨5, .stackUnderflow⟩ := by
      refine Reply.faulted.inj (reply.symm.trans ?_)
      decide +kernel
    subst same
    refine ⟨output.trans (by decide +kernel), status, before, traced.trans (by decide +kernel),
      outputs.trans ?_⟩
    exact congrArg (before ++ ·) (by decide +kernel)

end Command

end LS8
