import ListingFilter.CommandLine

namespace ListingFilter.Main

def readFile (path : Text) : IO FileContent := do
  try
    return .bytes (← IO.FS.readBinFile (String.ofList path))
  catch
    | .noFileOrDirectory .. => return .missing
    | e => return .unreadable (.ofString (toString e))

def settingsPath : CommandLine.Request → Text
  | .run options => options.config?.getD CommandLine.defaultFile
  | _ => CommandLine.defaultFile

def readInput : CommandLine.Request → IO Text
  | .run ⟨_, _, none⟩ => do return .ofString (← (← IO.getStdin).readToEnd)
  | _ => return []

end ListingFilter.Main

open ListingFilter

def main (args : List String) : IO UInt32 := do
  let args := args.map Text.ofString
  let request := CommandLine.request args
  let content ← Main.readFile (Main.settingsPath request)
  let outcome := CommandLine.run args (fun _ ↦ content) (← Main.readInput request)
  IO.print (String.ofList outcome.output)
  return UInt32.ofNat outcome.exitCode
