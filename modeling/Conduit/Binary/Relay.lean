import Conduit.Binary.Body
import Conduit.Lifecycle.Settings
import Conduit.Upstream.Attempts

/-!
# An HTTP/3 exchange from end to end

The handler of `run_h3` wraps the collected bytes in a `Full` body and hands
the request to `proxy_one`.  The file follows a message through: from the
client's stream to every attempt on a backend, and from the backend's response
to the client's stream.
-/

namespace Conduit

variable {B : Type}

/-! ## From the stream to the backend -/

namespace Upstream

end Upstream

/-! ## The response that is passed on -/

namespace Dispatch

variable {platform : Platform} {files : Files} {now : Nat} {cfg : Config}
  {opts : ValidationOptions} {d : Dispatch}

end Dispatch

/-! ## From the backend to the stream -/

namespace Streaming

variable {events : Nat → Option (Nat × Yield String Frame)}

end Streaming

/-! ## The exchange -/

namespace H3

end H3

end Conduit
