/-
# Settings

What an operator can choose: where to listen, what to serve and how to log.  `Settings.default`
is what holds without any choice.
-/
import IsolatedSite.Net.AddressReader

namespace IsolatedSite

/-- Where to listen. -/
structure ServerSettings where
  host : Text
  port : UInt16
  /-- The number of worker threads; the number of processors if not set. -/
  workers : Option Nat
  /-- The value of the `Server` header. -/
  serverName : Text
  deriving DecidableEq, Repr

/-- What to serve. -/
structure ServeSettings where
  root : Text
  /-- The files that stand for a folder, the first one that is there. -/
  indexFiles : List Text
  directoryListing : Bool
  deriving DecidableEq, Repr

/-- How to log. -/
structure LoggingSettings where
  accessLog : Bool
  accessLogFormat : Text
  accessLogFile : Option Text
  errorLogFile : Option Text
  deriving DecidableEq, Repr

/-- All settings. -/
structure Settings where
  server : ServerSettings
  serve : ServeSettings
  logging : LoggingSettings
  deriving DecidableEq, Repr

namespace Settings

/-- What holds when nothing is set. -/
def default : Settings where
  server := ⟨"0.0.0.0".toList, 8002, none, "coi-serve/0.1.0".toList⟩
  serve := ⟨['.'], ["index.html".toList, "index.htm".toList], true⟩
  logging := ⟨true, "common".toList, none, none⟩

instance : Inhabited Settings := ⟨default⟩

/-- Host and port as one text. -/
def addressText (s : Settings) : Text :=
  s.server.host ++ ':' :: Decimal.ofNat s.server.port.toNat

/-- The address to listen on; none if host and port together do not spell one. -/
def address? (s : Settings) : Option Net.SocketAddress :=
  Net.SocketAddress.read? s.addressText

end Settings

end IsolatedSite
