import Gatehouse.Ticket.Ring

namespace Gatehouse.Ticket

/-- The longest lifetime that can be announced, in seconds. -/
def maxLifetime : Nat := Nat.pow 2 32 - 1

def lifetimeHint (seconds : Nat) : Nat := min seconds maxLifetime

namespace Ring

def issue (ring : Ring) (iv state : Bytes) : Bytes := ring.keys.sealWith iv state

def redeem? (ring : Ring) (ticket : Bytes) : Option Bytes := ring.keys.open? ticket

end Ring
end Gatehouse.Ticket
