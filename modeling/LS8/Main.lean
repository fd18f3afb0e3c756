import LS8.Command.Perform

set_option autoImplicit false

namespace LS8.Command

def readFile (path : String) : IO (String × Except String ByteArray) := do
  match ← (IO.FS.readBinFile path).toBaseIO with
  | .ok bytes => return (path, .ok bytes)
  | .error cause => return (path, .error cause.toString)

def explain (text : String) : String :=
  if (Json.parse? text.toList).isSome then "not the settings of a machine" else "not a JSON text"

def display (microseconds : Nat) (filter : LogFilter) : Output → IO Unit
  | .out line => IO.println line
  | .err line => IO.eprintln line
  | .statistics tally => (tally.report microseconds).forM IO.println
  | .log event => if filter.shows event.level then IO.eprintln event.text else return ()

end LS8.Command

open LS8.Command in
def main (arguments : List String) : IO UInt32 := do
  let request := Request.ofArguments arguments
  let named ← IO.getEnv "RUST_LOG"
  let files ← request.files.mapM readFile
  let started ← IO.monoNanosNow
  let completion := request.perform explain fun path =>
    (files.lookup path).getD (.error "file was not read")
  let filter := LogFilter.choose named request.verbose
  for output in completion.outputs do
    let now ← IO.monoNanosNow
    display ((now - started) / 1000) filter output
  return completion.status.toUInt32
