import Gatekeeper.Command.Error
import Gatekeeper.Server.Http

namespace Gatekeeper

/-- What a command only asks. A stream that is full lets every write to it fail. -/
structure Surroundings where
  configPath : Option String := none
  now : Nat := 0
  freshKey : Key
  freshness : Freshness
  post : String → Bytes → Except String Http.Response := fun _ _ ↦ .error "unreachable"
  canListen : Net.SocketAddress → Bool := fun _ ↦ false
  outputFull : Bool := false
  errorsFull : Bool := false

structure Scene where
  disk : Disk := {}
  output : String := ""
  errors : List String := []
deriving Inhabited

namespace Scene

def noSpace : String := "No space left on device (os error 28)"

def print (s : Scene) (w : Surroundings) (text : String) : Except CommandError Unit × Scene :=
  if w.outputFull then (.error (.write "stdout" noSpace), s)
  else (.ok (), { s with output := s.output ++ text })

def printLine (s : Scene) (w : Surroundings) (line : String) : Except CommandError Unit × Scene :=
  s.print w (line ++ "\n")

/-- Writes lines to the standard error stream, where they are lost if it is full. -/
def report (s : Scene) (w : Surroundings) (lines : List String) : Scene :=
  if w.errorsFull then s else { s with errors := s.errors ++ lines }

/-- Writes a line to the standard error stream that must not be lost. -/
def notice (s : Scene) (w : Surroundings) (line : String) : Except CommandError Unit × Scene :=
  if w.errorsFull then (.error (.write "stderr" noSpace), s) else (.ok (), s.report w [line])

end Scene

end Gatekeeper
