import TickWaves.Demo.Program
import TickWaves.Log.Filter

/-!
# Running the demo program

Reads the arguments and the filter of the log, prints what the program puts out, and
waits between ticks.
-/

namespace TickWaves.Demo

/-- Prints what is put out, except for the records that the filter drops. -/
def printLines (filter : LogFilter) (lines : List Line) : IO Unit := do
  for line in lines do
    match line with
    | .record record => if filter.keeps record then IO.println record.text
    | .text text => IO.println text

/-- The exit code that stands for having none. -/
def signalled : Nat := 134

def finish (ending : Ending) : IO UInt32 := do
  if let some message := ending.message? then IO.eprintln message
  return UInt32.ofNat (ending.exitCode?.getD signalled)

/-- Ticks the program until it ends. -/
partial def tickOn (filter : LogFilter) (running : Running) : IO UInt32 := do
  let began ← IO.monoNanosNow
  let (lines, state) := running.tick
  printLines filter lines
  match state with
  | .ended ending => finish ending
  | .running running =>
      let (pause, lines, running) := running.rest ⟨(← IO.monoNanosNow) - began⟩
      printLines filter lines
      IO.sleep (UInt32.ofNat (pause.nanoseconds / 1000000))
      tickOn filter running

/-- The number of cores that the setting `TICKWAVES_CORES` tells of. -/
def coreCount : IO Nat := do
  return ((← IO.getEnv "TICKWAVES_CORES").bind String.toNat?).getD 1

def runProgram (arguments : List String) : IO UInt32 := do
  let some filter := LogFilter.ofSetting? (← IO.getEnv "TICKWAVES_LOG")
    | finish .brokenOff
  match Request.ofArguments arguments with
  | .error error =>
      IO.eprintln ("error: " ++ error.message)
      return 2
  | .ok .help =>
      IO.println Request.helpText
      return 0
  | .ok (.run options) =>
      let (lines, state) := options.start (.ofCores (← coreCount))
      printLines filter lines
      match state with
      | .ended ending => finish ending
      | .running running => tickOn filter running

end TickWaves.Demo

def main (arguments : List String) : IO UInt32 := TickWaves.Demo.runProgram arguments
