import HostBridge.CommandLine
import HostBridge.Callback.Stock

namespace HostBridge

/-- A small extension, on the one module that the program knows. -/
def demo : Session :=
  Session.initial.after
    [.registry "extension" (.text "demo") (.text "") (.text "1.0.0") none true,
     .add "usd" "extension" .decorator (.text "usd") (.text "Numeric") Callback.usd,
     .add "add" "extension" .function (.text "add") (.text "") Callback.add,
     .addParameter "add" (.text "Numeric") false,
     .addParameter "add" (.text "Numeric") false]

end HostBridge

open HostBridge in
def main (args : List String) : IO UInt32 := do
  let environment ← IO.getEnv "LAVENDEUX_LOG_FILTER"
  let modules := [("demo", demo.registries)]
  let ending := (CommandLine.run demo.bridge modules environment args).1
  ending.errors.forM fun line => IO.eprintln line
  IO.print ending.output
  return ending.code.toUInt32
