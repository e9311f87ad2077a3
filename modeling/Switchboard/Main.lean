import Switchboard.Cli

/-!
# `Switchboard.Main`: the program at work

Reads the variable, the file and the input, and hands each line to the host as it comes, so that a
client gets its answer before it sends the next request. All answers are those of
`Host.respondToLine`.
-/

set_option autoImplicit false

namespace Switchboard.Main

/-- Tells on the error stream why the program ends. -/
def complain (failure : Failure) : IO Unit := do
  (← IO.getStderr).putStrLn failure.message

/-- The content of a file, or why it cannot be read. -/
def readConfig (path : String) : IO (Except String Bytes) := do
  try
    let content ← IO.FS.readBinFile path
    return .ok content.toList
  catch error => return .error (toString error)

/-- The bytes up to the next line feed, or to the end of the input. -/
partial def readLine (input : IO.FS.Stream) (line : ByteArray) : IO ByteArray := do
  let next ← input.read 1
  if next.isEmpty then return line
  else
    let line := line ++ next
    if next.toList == [lineFeed] then return line else readLine input line

/-- Answers lines until the input ends. -/
partial def serve (input output : IO.FS.Stream) (host : Host) : IO Unit := do
  let line ← readLine input .empty
  if line.isEmpty then return
  match host.respondToLine line.toList with
  | none => serve input output host
  | some (response, host) =>
    output.putStr (response.encode ++ "\n")
    output.flush
    serve input output host

/-- Starts the host and serves the standard input. -/
def run : IO UInt32 := do
  let path := Cli.configPath (← IO.getEnv Cli.configVariable)
  match Cli.launch (← readConfig path) with
  | .error failure =>
    complain failure
    return 1
  | .ok host =>
    try
      serve (← IO.getStdin) (← IO.getStdout) host
      return 0
    catch error =>
      complain (streamFailure (toString error))
      return 1

end Switchboard.Main

/-- The host program. -/
def main : IO UInt32 := Switchboard.Main.run
