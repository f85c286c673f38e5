/-
  Datebook/Console/Rehearsal.lean
  ===============================
  **The whole program without the world**: a server with a script, a calendar in
  memory, a tree of files, and supplies of ids and times, in one `World`.

  The script answers the model's requests and the calendar's in the order in which
  they are made.
-/
import Datebook.Calendar.Memory
import Datebook.Console.Disk
import Datebook.Console.Startup

namespace Datebook.Console

structure World where
  server : Http.Script
  memory : MemoryCalendar
  disk : Disk
  stamps : Supply Stamp
  today : Date

namespace World

def onServer {α : Type} (act : StateM Http.Script α) : StateM World α := fun w =>
  let (a, server) := act w.server
  (a, { w with server })

def onMemory {α : Type} (act : StateM MemoryCalendar α) : StateM World α := fun w =>
  let (a, memory) := act w.memory
  (a, { w with memory })

def onDisk {α : Type} (act : StateM Disk α) : StateM World α := fun w =>
  let (a, disk) := act w.disk
  (a, { w with disk })

def takeStamp : StateM World Stamp := fun w =>
  let (stamp, stamps) := w.stamps.take
  (stamp, { w with stamps })

/-- What a rehearsed program finds around it. -/
def surroundings (environment : String → Option String) : Surroundings (StateM World) where
  net := Http.Script.transport.lift onServer
  inMemory := MemoryCalendar.service.lift onMemory
  stamp := takeStamp
  today := fun w => (w.today, w)
  environment := environment
  readFile := fun path => onDisk (Disk.read path)
  writeFile := fun path text => onDisk (Disk.write path text)

/-- Run the program on a text at the console. -/
def rehearse (environment : String → Option String) (arguments : List String) (typed : String) :
    StateM World Ending :=
  run (surroundings environment) arguments ((linesOf typed.toList).map String.ofList)

end World

end Datebook.Console
