import GuestBridge.CommandLine

/-!
# The program

Reads the configuration file, if one is asked for, runs, and prints what the run
left.
-/

/-- The entry point. -/
def main (args : List String) : IO UInt32 := do
  let invocation := GuestBridge.Invocation.ofArgs args
  let content ← match invocation.configPath? with
    | some path => (some <$> IO.FS.readFile path) <|> pure none
    | none => pure none
  let report := invocation.execute content
  (← IO.getStdout).putStr report.stdout
  for d in report.diagnostics do
    IO.eprintln d.message
  return report.code.toUInt32
