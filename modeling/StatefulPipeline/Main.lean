import StatefulPipeline.CommandLine.Program

/-! The executable: it reads the arguments and the configuration file, and writes the answer. -/

open StatefulPipeline CommandLine

/-- The exit code for a command line that cannot be read. -/
def usageCode : UInt32 := 2

def usageText : String :=
  "usage: sfp4ctl [--config FILE] [--device ID] [--format text|json] " ++
    "start|stop|bind|show|schema [SERVICE] [OPTIONS]\n"

def readFile? (path : String) : IO (Option ByteArray) := do
  try
    return some (← IO.FS.readBinFile path)
  catch _ =>
    return none

def main (args : List String) : IO UInt32 := do
  let request := Request.read args
  let file ←
    match request.file? with
    | some path => readFile? path
    | none => pure none
  match request.answer file with
  | none =>
    IO.eprint usageText
    return usageCode
  | some output =>
    IO.print output.stdout
    IO.eprint output.stderr
    return UInt32.ofNat output.code.toNat
