import Pm2Manager.Binary64
import Pm2Manager.Grouping

/-!
# The `metrics` table

The rows of the collector and the two downsampling queries of the charts.  A
number bound to a statement is a REAL for SQLite: the quotient which gives the
bucket of a row is a double, while sums and averages are taken exactly.
-/

namespace Pm2Manager

open Grouping

structure MetricRecord where
  pmId : ℤ
  name : String
  status : String
  cpu : ℚ
  memory : ℤ
  uptime : ℤ
  restartCount : ℤ
  timestamp : ℤ
deriving DecidableEq, Repr

abbrev MetricsTable := List MetricRecord

structure MetricPoint where
  timestamp : ℚ
  cpu : ℚ
  memory : ℚ
  restartCount : ℤ
  status : String
deriving DecidableEq, Repr

structure AggregatePoint where
  timestamp : ℚ
  cpu : ℚ
  memory : ℚ
deriving DecidableEq, Repr

/-! ## Buckets -/

def targetPoints : ℕ := 500

def bucketMsFor (since upper : ℤ) : ℤ :=
  let span := max 0 (Binary64.round ((upper - since : ℤ)))
  max 1 ⌈Binary64.round (span / targetPoints)⌉

/-- `CAST(... AS INTEGER)` cuts off the fraction. -/
def castInteger (value : ℚ) : ℤ :=
  if 0 ≤ value then ⌊value⌋ else ⌈value⌉

/-- `CAST(timestamp / ? AS INTEGER)`. -/
def bucketOf (bucket timestamp : ℤ) : ℤ :=
  castInteger (Binary64.round (Binary64.round timestamp / bucket))

/-- `CAST(timestamp / ? AS INTEGER) * ?`. -/
def bucketStart (bucket key : ℤ) : ℚ :=
  Binary64.round (Binary64.round key * bucket)

namespace MetricsTable

variable (table : MetricsTable)

/-- `timestamp >= ? AND timestamp <= ?`. -/
def window (since upper : ℤ) : MetricsTable :=
  table.filter fun row => since ≤ row.timestamp ∧ row.timestamp ≤ upper

def named (name : String) : MetricsTable :=
  table.filter fun row => row.name = name

/-! ## `metricsRepository` -/

/-- `insertMany` outside its error path, which inserts nothing. -/
def insertMany (samples : List MetricRecord) : MetricsTable :=
  table ++ samples

def deleteOlderThan (cutoff : ℤ) : MetricsTable :=
  table.filter fun row => ¬ row.timestamp < cutoff

/-- `AVG` is the exact rational one, where SQLite adds and divides doubles. -/
def seriesPoint (bucket key : ℤ) (rows : List MetricRecord) : MetricPoint where
  timestamp := bucketStart bucket key
  cpu := average (rows.map MetricRecord.cpu)
  memory := average (rows.map fun row => (row.memory : ℚ))
  restartCount := ((rows.map MetricRecord.restartCount).max?).getD 0
  status := ""

/-- The points of `seriesForProcess`, each with the number of its bucket. -/
def seriesBuckets (name : String) (since upper : ℤ) :
    List (ℤ × MetricPoint) :=
  let bucket := bucketMsFor since upper
  (groupBy (fun row => bucketOf bucket row.timestamp)
      ((table.window since upper).named name)).map fun entry =>
    (entry.1, seriesPoint bucket entry.1 entry.2)

def seriesForProcess (name : String) (since : ℤ) (untilMs : Option ℤ) (now : ℤ) :
    List MetricPoint :=
  ((table.seriesBuckets name since (untilMs.getD now)).map Prod.snd).insertionSort
    fun p q => p.timestamp ≤ q.timestamp

/-- The inner query: the sums over the rows of each timestamp. -/
def sampleTotals (since upper : ℤ) : List (ℤ × ℚ × ℚ) :=
  (groupBy MetricRecord.timestamp (table.window since upper)).map fun entry =>
    (entry.1, (entry.2.map MetricRecord.cpu).sum,
      (entry.2.map fun row => (row.memory : ℚ)).sum)

/-- `AVG` over the totals of the samples, exact like the totals themselves. -/
def aggregatePoint (bucket key : ℤ) (totals : List (ℤ × ℚ × ℚ)) :
    AggregatePoint where
  timestamp := bucketStart bucket key
  cpu := average (totals.map fun total => total.2.1)
  memory := average (totals.map fun total => total.2.2)

/-- The points of `aggregateSeries`, each with the number of its bucket. -/
def aggregateBuckets (since upper : ℤ) : List (ℤ × AggregatePoint) :=
  let bucket := bucketMsFor since upper
  (groupBy (fun total => bucketOf bucket total.1)
      (table.sampleTotals since upper)).map fun entry =>
    (entry.1, aggregatePoint bucket entry.1 entry.2)

def aggregateSeries (since : ℤ) (untilMs : Option ℤ) (now : ℤ) :
    List AggregatePoint :=
  ((table.aggregateBuckets since (untilMs.getD now)).map Prod.snd).insertionSort
    fun p q => p.timestamp ≤ q.timestamp

end MetricsTable

end Pm2Manager
