import RevisionWatch.Revision
/-!
# Packages

A record says what the daemon reported about one installed package in one answer: its name, its
revision, the version text if it gave one, and whether the package runs as a service. That a
service is active is part of being a service, so nothing that is no service can be running.
-/

namespace RevisionWatch

/-- Whether a package runs as a service, and then whether the service is active. -/
inductive ServiceState where
  | notService
  | service (active : Bool)
deriving DecidableEq, Repr, Inhabited

/-- One installed package, as reported in one answer. -/
structure Package where
  name : String
  revision : Revision
  version : Option String
  service : ServiceState
deriving DecidableEq, Repr, Inhabited

namespace Package

/-- The package declares a service. -/
def isDaemon (p : Package) : Bool :=
  match p.service with
  | .notService => false
  | .service _ => true

/-- The package declares a service, and it is active. -/
def isRunning (p : Package) : Bool :=
  match p.service with
  | .service true => true
  | _ => false

theorem isDaemon_of_isRunning (p : Package) (h : p.isRunning = true) : p.isDaemon = true := by
  unfold isRunning at h
  unfold isDaemon
  split at h <;> simp_all

end Package

end RevisionWatch
