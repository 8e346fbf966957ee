namespace Redline

structure DiffSettings where
  /-- Reads the whole stream before any of it is applied. -/
  instant : Bool
  /-- The pause after every applied line, in milliseconds. -/
  minOpDelay : Nat
  rejectOnCancel : Bool
  eventCapacity : Nat
  deriving DecidableEq, Repr

structure TelemetrySettings where
  logLevel : String
  json : Bool
  deriving DecidableEq, Repr

structure Settings where
  diff : DiffSettings
  telemetry : TelemetrySettings
  deriving DecidableEq, Repr

def DiffSettings.standard : DiffSettings := ⟨false, 0, false, 256⟩

def TelemetrySettings.standard : TelemetrySettings := ⟨"info", false⟩

def Settings.standard : Settings := ⟨.standard, .standard⟩

namespace DiffSettings

def opDelay (settings : DiffSettings) : Option Nat :=
  if settings.minOpDelay = 0 then none else some settings.minOpDelay

def describe (settings : DiffSettings) : String :=
  "DiffSettings \x7b instant: " ++ toString settings.instant ++
    ", min_op_delay_ms: " ++ toString settings.minOpDelay ++
    ", reject_on_cancel: " ++ toString settings.rejectOnCancel ++
    ", event_capacity: " ++ toString settings.eventCapacity ++ " \x7d"

end DiffSettings

end Redline
