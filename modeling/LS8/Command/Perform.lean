import LS8.Command.Output
import LS8.Command.Request
import LS8.Isa.Listing
import LS8.Storage

set_option autoImplicit false

namespace LS8.Command

def versionText : String := "ls8 0.3.0"

def helpLines : List String :=
  ["LS-8 eight-bit virtual machine",
    "",
    "  ls8 [-v] run FILE [-c CONFIG] [--trace] [--stats] [--stack growable|ram] [--start-pc N]",
    "  ls8 [-v] disasm FILE"]

def RunOptions.adjust (options : RunOptions) (settings : Settings) : Settings :=
  { settings with
    traceInstructions := settings.traceInstructions || options.trace
    placement := options.placement.getD settings.placement
    startPc := options.startPc.getD settings.startPc }

def RunOptions.settings (options : RunOptions) (explain : String → String) (storage : Storage) :
    Except SettingsError Settings :=
  match options.config with
  | none => .ok (options.adjust {})
  | some path => (Settings.ofFile explain storage path).map options.adjust

def statisticsIf (wanted : Bool) (engine : Engine) : List Output :=
  if wanted then [.statistics engine.tally] else []

def parsed (path : String) (image : List UInt8) : Output :=
  .log (.programParsed path image.length)

def finishRun (outputs : List Output) (engine : Engine) :
    Except (Failure Fault) HaltReason → Completion
  | .ok reason => ⟨outputs ++ [.log (.runFinished reason)], 0⟩
  | .error (.raised fault) =>
      fatal (outputs ++ [.err engine.machine.registers.dump]) fault.text
  | .error (.defect defect) => fatal outputs defect.text

def runImage (options : RunOptions) (settings : Settings) (image : List UInt8) : Completion :=
  let loaded := (Engine.load image).run (.ofSettings settings)
  let loading := parsed options.file image :: loaded.emitted.map .ofEmission
  match loaded.result with
  | .error trap => fatal loading trap.text
  | .ok () =>
      let ended := Engine.run.run loaded.state
      let running := loading ++ ended.emitted.map .ofEmission
      finishRun (running ++ statisticsIf options.stats ended.state) ended.state ended.result

def runProgram (explain : String → String) (storage : Storage) (options : RunOptions) :
    Completion :=
  match options.settings explain storage with
  | .error error => fatal [] error.text
  | .ok settings =>
      match Program.ofFile storage options.file with
      | .error error => fatal [] error.text
      | .ok image => runImage options settings image

def listProgram (storage : Storage) (file : String) : Completion :=
  match Program.ofFile storage file with
  | .error error => fatal [] error.text
  | .ok image =>
      ⟨parsed file image :: (listing image).map fun line => .out line.text, 0⟩

def Request.perform (explain : String → String) (storage : Storage) : Request → Completion
  | .misuse => ⟨helpLines.map .err, 2⟩
  | .help => ⟨helpLines.map .out, 0⟩
  | .version => ⟨[.out versionText], 0⟩
  | .run options _ => runProgram explain storage options
  | .disassemble file _ => listProgram storage file

def Request.verbose : Request → Bool
  | .run _ verbose => verbose
  | .disassemble _ verbose => verbose
  | _ => false

def Request.files : Request → List String
  | .run options _ => options.config.toList ++ [options.file]
  | .disassemble file _ => [file]
  | _ => []

end LS8.Command
