/-! What a provider of Unix sockets can be told. -/

namespace LocalEndpoint.Unix

/-- Settings of a provider of Unix sockets. -/
structure Settings where
  /-- Whether `listen` first removes a socket file that stands at its path. -/
  removeStale : Bool := false
  /-- Whether closing a listener removes the file at its path. -/
  cleanupOnClose : Bool := true
  deriving DecidableEq

end LocalEndpoint.Unix
