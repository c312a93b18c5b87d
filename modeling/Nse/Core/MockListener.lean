/-
  Nse.Core.MockListener — the servers that give injected packets something to arrive at
  (`start_mock_listener`, `nse/core/mock_listener.py`).
-/

import Nse.Core.Effects

namespace Nse.MockListener

def startMockListener (netns : String) (proto : Protocol) (port : Int) (useNsenter : Bool) : Prog Nat :=
  perform (.popen (execPrefix useNsenter netns ++
    [.python, .str "-u", .str "-m", .str "nse.core.mock_listener", .str "--proto", .str proto.name, .str "--port",
      .str (toString port), .str "--host", .str "::"]))

end Nse.MockListener
