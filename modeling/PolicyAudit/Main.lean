import PolicyAudit.Command.Snapshot

/-! The program: arguments from the command line, surroundings as a JSON document on the standard
input, log records and errors on the error output. -/

open PolicyAudit Command

def usage : String :=
  "usage: policyaudit [-h] [--report FORMAT] [--manifests PATH] [--min-priority LEVEL] " ++
    "[--source SOURCE] [--skip-cluster-reports] [--log-level LEVEL]"

def exitStatus (n : Nat) : UInt32 := .ofNat n

def main (args : List String) : IO UInt32 := do
  match Request.ofArguments args with
  | .help =>
    IO.println usage
    return exitStatus Request.help.status
  | .refused =>
    IO.eprintln usage
    return exitStatus Request.refused.status
  | .run s =>
    let text ← (← IO.getStdin).readToEnd
    let r := Command.run s (Snapshot.surroundings ((Json.read? text).getD .null))
    for record in r.log do
      IO.eprintln (record.level.name ++ " " ++ record.origin.name ++ ": " ++ record.message)
    match r.result with
    | .ok o =>
      IO.print o.out
      IO.eprint o.err
      return exitStatus o.status
    | .error f =>
      IO.eprintln f.message
      return exitStatus 1
