import Dvws.Main.Isolation
import Dvws.Router.Answered

/-!
# Every client is answered

What a client hears is what arrives at its connection. However the steps of the threads are
ordered, that is the answer to its own request: one well-formed response and nothing behind it, or
nothing at all, if the request gets no answer.
-/

namespace Dvws.Main

open Effect Transition ThreadPool Wire

/-- The bytes that an operation sends. -/
def Operation.sent : Operation → Bytes
  | .recv => []
  | .event e => (sentData e).getD []

end Dvws.Main
