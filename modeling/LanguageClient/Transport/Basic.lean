import LanguageClient.Failure
import LanguageClient.Log

/-!
What can be seen of a transport from outside: what it wrote, what it did to its peer, and what it
recorded. A transport carries frames to a server and back; once closed it stays closed.
-/

namespace LanguageClient.Transport

/-- What a transport has done so far. What is written is of type `ω`. -/
structure Trace (ω : Type) where
  written : List ω := []
  events : List String := []
  journal : Journal := []

namespace Trace

variable {ω : Type}

def wrote (x : ω) (t : Trace ω) : Trace ω := { t with written := t.written ++ [x] }

def did (event : String) (t : Trace ω) : Trace ω := { t with events := t.events ++ [event] }

def told (message : String) (t : Trace ω) : Trace ω :=
  { t with journal := t.journal.write .info message }

end Trace

end LanguageClient.Transport
