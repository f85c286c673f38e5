/-
  Datebook/Main.lean
  ==================
  **The program at the console.**

  Everything that is decided is decided elsewhere; here the world is attached: the
  files, the clock, random numbers, plain connections, and the lines that are
  typed.  Encrypted connections are not made; an address that asks for one is
  answered by nobody, so an encrypting proxy has to stand in front of such a
  partner.
-/
import Datebook.Calendar.Memory
import Datebook.Console.Startup
import Datebook.Http.Wire
import Std.Async.DNS
import Std.Async.TCP
import Std.Time

namespace Datebook.Program

open Datebook.Console Std.Async

/-! ### Clock and ids -/

/-- The date of a day as the clock gives it. -/
def dateOf (d : Std.Time.PlainDate) : Option Date :=
  Date.ofYMD? d.year d.month.val.toNat d.day.val.toNat

/-- The day, in local time. -/
def today : IO Date := do
  match dateOf (← Std.Time.PlainDate.now) with
  | some d => return d
  | none => throw (.userError "the clock shows no date")

/-- The time, in universal time. -/
def now : IO Instant := do
  let t := (Std.Time.DateTime.ofTimestampWithZone (← Std.Time.Timestamp.now) .UTC).toPlainDateTime
  let time := TimeOfDay.ofFields? t.time.hour.val.toNat t.time.minute.val.toNat
    t.time.second.val.toNat t.time.nanosecond.val.toNat
  match dateOf t.date, time with
  | some date, some time => return ⟨⟨date, time⟩⟩
  | _, _ => throw (.userError "the clock shows no time")

/-- A random number of 128 bits. -/
def randomNumber : IO Nat := do
  return (← IO.getRandomBytes 16).foldl (fun n b => 256 * n + b.toNat) 0

def newStamp : IO Stamp := do
  return { id := Uuid.random (← randomNumber), time := ← now }

/-- Ids from a random place on, by an odd step, so that none comes twice. -/
def newIds : IO (Supply String) := do
  let first ← randomNumber
  let step := 2 * (← randomNumber) + 1
  return ⟨fun n => (Uuid.random (first + n * step)).text, 0⟩

/-! ### Files -/

/-- The cause behind a fault of the system. -/
def fileFault : IO.Error → FileFault
  | .noFileOrDirectory .. => .notFound
  | .inappropriateType _ 21 _ => .isDirectory
  | .inappropriateType _ 20 _ => .notDirectory
  | fault => .described (toString fault)

def attempt {α : Type} (act : IO α) : IO (Except FileFault α) := do
  try return .ok (← act)
  catch fault => return .error (fileFault fault)

/-! ### Connections -/

/-- The addresses of a host. -/
def addresses (host : Url.Host) : Async (List Std.Net.IPAddr) :=
  match host with
  | .name name => return (← DNS.getAddrInfo name "").toList
  | .v4 address =>
    match (Url.octets address).map Nat.toUInt8 with
    | [a, b, c, d] => return [.v4 (.ofParts a b c d)]
    | _ => return []
  | .v6 pieces =>
    match pieces.map Nat.toUInt16 with
    | [a, b, c, d, e, f, g, h] => return [.v6 (.ofParts a b c d e f g h)]
    | _ => return []

def socketAddress (address : Std.Net.IPAddr) (port : UInt16) : Std.Net.SocketAddress :=
  match address with
  | .v4 addr => .v4 { addr, port }
  | .v6 addr => .v6 { addr, port }

/-- All bytes up to the end of a connection. -/
partial def receiveAll (socket : TCP.Socket.Client) (sofar : ByteArray) : Async ByteArray := do
  match ← socket.recv? 65536 with
  | some bytes => if bytes.isEmpty then return sofar else receiveAll socket (sofar ++ bytes)
  | none => return sofar

/-- Send bytes to an address, and receive what comes back. -/
def exchange (address : Std.Net.SocketAddress) (bytes : ByteArray) : Async ByteArray := do
  let socket ← TCP.Socket.Client.mk
  socket.connect address
  socket.send bytes
  receiveAll socket .empty

/-- Make an exchange with the first of the addresses that takes part. -/
def exchangeWithAny (port : UInt16) (bytes : ByteArray) :
    List Std.Net.IPAddr → Async (Option ByteArray)
  | [] => return none
  | address :: rest => do
    try return some (← exchange (socketAddress address port) bytes)
    catch _ => exchangeWithAny port bytes rest

def send (r : Http.Request) : IO (Except Http.Fault Http.Response) := do
  if r.url.secure then return .error .unanswered
  try
    let answer ← Async.block do
      exchangeWithAny r.url.port.toUInt16 r.wireText.toUTF8 (← addresses r.url.host)
    match answer.bind fun bytes => Http.Response.ofWire? bytes.toList with
    | some response => return .ok response
    | none => return .error .unanswered
  catch _ => return .error .unanswered

/-- Plain connections; a listing may take a million requests. -/
def net : Http.Transport IO where
  send := send
  patience := return 1000000

/-! ### The console -/

/-- The settings that the environment may override. -/
def environmentNames : List String :=
  ["LLM_API_KEY", "LLM_API_URL", "LLM_MODEL", "GRAPH_CLIENT_SECRET"]

def surroundings : IO (Surroundings IO) := do
  let memory ← IO.mkRef (⟨.empty, ← newIds⟩ : MemoryCalendar)
  let environment ← environmentNames.mapM fun name => return (name, ← IO.getEnv name)
  return {
    net := net
    inMemory := MemoryCalendar.service.lift fun act => memory.modifyGet act.run
    stamp := newStamp
    today := today
    environment := fun name => (environment.lookup name).join
    readFile := fun path => attempt (IO.FS.readFile path)
    writeFile := fun path text => attempt (IO.FS.writeFile path text) }

/-- Answer the lines that are typed, up to the end of the input. -/
partial def talk (desk : Desk IO) (input output : IO.FS.Stream) (s : Session) : IO Unit := do
  output.putStr prompt
  output.flush
  let typed ← input.getLine
  if typed.isEmpty then return
  match Line.read typed with
  | .quit => return
  | line =>
    let (shown, s) ← react desk s line
    output.putStr shown
    talk desk input output s

def run (arguments : List String) : IO UInt32 := do
  let errors ← IO.getStderr
  match Arguments.read arguments with
  | .error .helpWanted =>
    (← IO.getStdout).putStr ArgumentFault.helpWanted.message
    return ArgumentFault.helpWanted.status
  | .error fault =>
    errors.putStr fault.message
    return fault.status
  | .ok a =>
    match ← start (← surroundings) a with
    | .error failure =>
      errors.putStr ("Error: " ++ failure.message ++ "\n")
      return 1
    | .ok desk =>
      let output ← IO.getStdout
      output.putStr banner
      talk desk (← IO.getStdin) output .empty
      return 0

end Datebook.Program

def main (arguments : List String) : IO UInt32 := Datebook.Program.run arguments
