import ArmControl.Error
import ArmControl.Host.Address
import ArmControl.Host.Error
import ArmControl.Host.Name

/-!
# The network of a host

The client runs on a host, which finds out what an address means and opens connections to it.  A host
without a network (`Network.isolated`) refuses every connection.
-/

namespace ArmControl

/-- The network that a host has. -/
inductive Network
  /-- None: no other host can be reached, nor the host itself over its own address. -/
  | isolated
  /-- Its own: the host reaches itself. -/
  | loopback
deriving DecidableEq, Repr, Inhabited

namespace Network

/-- The address of the host itself. -/
def ownAddress : Address := .short 0x7f000001

/-- The address that a text means.  Without a name server, the only name is that of the host. -/
def resolve (text : String) : Except LinkError Address :=
  let unresolved (reason : String) : Except LinkError Address :=
    .error (.invalidAddress (text ++ ": " ++ reason))
  if text.toList.contains '\x00' then unresolved nulMessage
  else
    match Address.ofText? text with
    | some address => .ok address
    | none =>
      if text.toLower = "localhost" then .ok ownAddress
      else unresolved ("failed to lookup address information: " ++
        (if HostName.isName text then "Temporary failure in name resolution"
        else "Name or service not known"))

/-- Why a host that has no address of its own does not reach an address. -/
def refusal : Address → HostError
  | .short _ => .networkUnreachable
  | .long groups zone =>
    if Address.isMulticast groups || Address.isMapped groups then .networkUnreachable
    else if Address.isLinkLocal groups ∧ zone = 0 then .invalidArgument
    else .addressNotAvailable

/-- Opens a connection. -/
def open? : Network → Address → Except HostError Unit
  | isolated, address => .error (refusal address)
  | loopback, _ => .ok ()

/-- Opens a connection to what a text means. -/
def connect (n : Network) (text : String) : Except LinkError Unit :=
  match resolve text with
  | .error err => .error err
  | .ok address =>
    match n.open? address with
    | .error err => .error (.io err.message)
    | .ok () => .ok ()

theorem isolated_connect (text : String) : ∃ err, isolated.connect text = .error err := by
  unfold connect
  cases resolve text with
  | error err => exact ⟨err, rfl⟩
  | ok address => exact ⟨.io (refusal address).message, rfl⟩

end Network
end ArmControl
