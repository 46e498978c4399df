import ScreenReader.Log

namespace ScreenReader

/-- A stable handle to something that can have the focus. -/
structure Target where
  key : UInt64
  deriving DecidableEq, Repr

def Target.root : Target := ⟨0⟩

/-- Who is asked about targets. To ask about a faulty target breaks off whatever is going on. -/
structure Host where
  active : Option Target
  valid : Target → Bool
  faulty : Target → Bool

structure HostFault where
  target : Target
  deriving DecidableEq, Repr

def HostFault.message (fault : HostFault) : String :=
  s!"host panic on {fault.target.key}"

/-- Work that asks a host and may be broken off by it; what was logged until then stays. -/
abbrev Inquiry := ExceptT HostFault Logged

def Host.ask (host : Host) (t : Target) : Inquiry Bool :=
  if host.faulty t then throw ⟨t⟩ else pure (host.valid t)

end ScreenReader
