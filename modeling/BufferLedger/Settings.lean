import BufferLedger.Watch.Config

/-!
# Settings of the program

What a run of the program can be told: where the server is, what to watch, and how patient to
be. Delays are in milliseconds.
-/

namespace BufferLedger

structure Settings where
  kubeconfig : Option String
  space : Option String
  podDelayMin : Nat
  podDelayMax : Nat
  machineDelayMin : Nat
  machineDelayMax : Nat
  /-- Attempts at each first list. Zero means no limit. -/
  attempts : Nat
  shutdownSeconds : Nat
  deriving DecidableEq

namespace Settings

def standard : Settings := ⟨none, none, 250, 750, 250, 750, 5, 30⟩

def attemptLimit (s : Settings) : Option Nat :=
  if s.attempts = 0 then none else some s.attempts

def watchConfig (s : Settings) (name : String) (a b : Nat) : WatchConfig :=
  ⟨name, .millis a b, .millis a b, s.attemptLimit⟩

def podConfig (s : Settings) : WatchConfig :=
  s.watchConfig "pods" s.podDelayMin s.podDelayMax

def machineConfig (s : Settings) : WatchConfig :=
  s.watchConfig "VMs" s.machineDelayMin s.machineDelayMax

def shutdownTimeout (s : Settings) : Duration :=
  .ofSeconds s.shutdownSeconds

end Settings

end BufferLedger
