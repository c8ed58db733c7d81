/-!
# Errors of the host tools

The errors that the modelled operations of the host library can return, with their texts.
-/

set_option linter.all false

namespace Galdralag.Host

/-- Failures of the database layer. -/
inductive SqlError where
  /-- A primary key or a foreign key is violated. -/
  | constraintViolation
  /-- A stored value does not have the type that is asked for. -/
  | conversionFailure
  /-- A file cannot be read under the key it is opened with. -/
  | notADatabase
  /-- A pattern is longer than patterns may be. -/
  | patternTooComplex
  /-- A file is attached under a name that is taken. -/
  | alreadyInUse
  | noSuchTable
  /-- A row is inserted by position into a table with another number of columns. -/
  | columnCountMismatch
  /-- Another connection holds the lock. -/
  | busy
  deriving DecidableEq, Repr

/-- Errors of the host library. -/
inductive GaldraError where
  | database (e : SqlError)
  | contactNotFound (contact : String)
  | groupNotFound (group : String)
  | deviceNotConnected
  | io (message : String)
  | smartCard (message : String)
  | config (message : String)
  | serialise (message : String)
  | shamir (message : String)
  | cipherProfile (message : String)
  | removedLegacyCrypto (message : String)
  | profileNotFound (name : String)
  | epkExpired (sessionId : String)
  | epkConsumed (sessionId : String)
  | epkNotFound (sessionId : String)
  deriving DecidableEq, Repr

end Galdralag.Host
