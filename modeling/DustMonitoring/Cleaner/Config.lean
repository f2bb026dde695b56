import Mathlib.Data.Rat.Defs

/-!
# The settings of the cleaner

The limits of the retention and of the two purges of the frames, with the
defaults of `CleanerSettings`.  All of them are plain integers: the
settings check no bounds.
-/

namespace DustMonitoring.Cleaner

/-- The share of the disk that is used, in percent: what `_disk_percent`
computes when it does not answer `None`. -/
abbrev Percent := Rat

/-- The retention and the schedule of `CleanerSettings`. -/
structure CleanerSettings where
  videoNormalDays : Int := 14
  videoAnomalyDays : Int := 180
  sensorDays : Int := 180
  ingestionLogDays : Int := 180
  runAtHourKst : Int := 3
  runAtMinuteKst : Int := 0
  batchSize : Int := 200
  emergencyPurgeAtPercent : Int := 85
  emergencyTargetPercent : Int := 70
  diskCheckIntervalSec : Int := 300
deriving DecidableEq, Repr

end DustMonitoring.Cleaner
