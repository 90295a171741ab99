import BackgroundTasks.Scheduler.Basic
import BackgroundTasks.System.Basic

/-!
# Setting up

A scheduler is put together from a configuration, payload types and perhaps a cipher. Types are
registered first, then the configuration is checked, then the store is opened; the first thing that
goes wrong is reported, and nothing is kept of the rest.
-/

namespace BackgroundTasks

/-- What a scheduler is put together from. -/
structure Setup where
  config : Config := {}
  types : List PayloadType := []
  cipher : Option Cipher := none

namespace Setup

/-- The registry of the given types, which have to have ids of their own. -/
def registry (s : Setup) : Except PayloadFault Registry :=
  s.types.foldlM Registry.register { cipher := s.cipher }

/-- What is wrong with the configuration, given whether there is a cipher. -/
def configFault? (s : Setup) : Option ConfigFault :=
  match s.config.fault? with
  | some fault => some fault
  | none => if s.config.encryptPayloads && s.cipher.isNone then some .cipherMissing else none

/-- The scheduler, if it can be put together. -/
def scheduler (s : Setup) : Except Failure Scheduler :=
  match s.registry with
  | .error fault => .error (.payload fault)
  | .ok registry =>
    match s.configFault? with
    | some fault => .error (.invalidConfig fault)
    | none => .ok ⟨s.config, registry⟩

/-- Opens the store that a configuration asks for. -/
def openStore (config : Config) (place : Place) : Except Failure Store × Place :=
  match config.backend with
  | .inMemory => (.ok (.memory .empty), place)
  | .file _ =>
    match FileStore.openTable.eval Place.answer place with
    | (.ok table, place) => (.ok (.files table), place)
    | (.error fault, place) => (.error (.store fault), place)

/-- The scheduler with its store opened. -/
def build (s : Setup) (place : Place) : Except Failure (Scheduler × Store) × Place :=
  match s.scheduler with
  | .error failure => (.error failure, place)
  | .ok scheduler =>
    let (store, place) := openStore s.config place
    (store.map fun store => (scheduler, store), place)

end Setup

end BackgroundTasks
