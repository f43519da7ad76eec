import Mathlib.Data.Finset.Max
import Mathlib.Data.Int.Interval
import Pm2Manager.MetricsTable

/-!
# Buckets of the charts

Both series cut the window into buckets of one length.  The length is a
quotient of doubles rounded up, the bucket of a row a quotient of doubles cut
off; for timestamps below `2 ^ 53` neither rounding moves a row, and a window
meets at most one bucket more than the target.
-/

namespace Pm2Manager

open Grouping

variable {table : MetricsTable} {since upper bucket timestamp key : ℤ}

/-! ## The arithmetic of the buckets -/

theorem bucketMsFor_pos (since upper : ℤ) : 0 < bucketMsFor since upper :=
  zero_lt_one.trans_le (le_max_left _ _)

/-- A timestamp for which the arithmetic of doubles is exact. -/
def SafeTimestamp (timestamp : ℤ) : Prop :=
  0 ≤ timestamp ∧ timestamp < 2 ^ 53

theorem SafeTimestamp.round_eq (hsafe : SafeTimestamp timestamp) :
    Binary64.round timestamp = timestamp :=
  Binary64.round_intCast (abs_lt.mpr ⟨by linarith [hsafe.1], hsafe.2⟩)

theorem bucketOf_eq (hbucket : 0 < bucket) (hsafe : SafeTimestamp timestamp) :
    bucketOf bucket timestamp = timestamp / bucket := by
  obtain ⟨t, rfl⟩ := Int.eq_ofNat_of_zero_le hsafe.1
  obtain ⟨b, rfl⟩ := Int.eq_ofNat_of_zero_le hbucket.le
  have hlt : t < 2 ^ 53 := by exact_mod_cast hsafe.2
  have hpos : 0 < b := by exact_mod_cast hbucket
  have hfloor := Binary64.floor_round_div hlt hpos
  have hnonneg : 0 ≤ Binary64.round ((t : ℚ) / b) :=
    Binary64.round_nonneg (by positivity)
  rw [bucketOf, hsafe.round_eq, castInteger, Int.cast_natCast, Int.cast_natCast,
    if_pos hnonneg, hfloor]
  exact Int.natCast_div t b

/-- The start of a bucket which holds an exact timestamp is exact. -/
theorem bucketStart_eq (hbucket : 0 < bucket) (hsafe : SafeTimestamp timestamp)
    (hkey : timestamp / bucket = key) : bucketStart bucket key = key * bucket := by
  have hle : key * bucket ≤ timestamp := hkey ▸ Int.ediv_mul_le timestamp hbucket.ne'
  have hnonneg : 0 ≤ key := hkey ▸ Int.ediv_nonneg hsafe.1 hbucket.le
  have hkeyLe : key ≤ key * bucket := le_mul_of_one_le_right hnonneg hbucket
  have hkeySafe : SafeTimestamp key := ⟨hnonneg, (hkeyLe.trans hle).trans_lt hsafe.2⟩
  have hstartSafe : SafeTimestamp (key * bucket) :=
    ⟨by positivity, hle.trans_lt hsafe.2⟩
  rw [bucketStart, hkeySafe.round_eq]
  exact_mod_cast hstartSafe.round_eq

theorem span_le_bucketMsFor (hle : since ≤ upper) (hspan : upper - since < 2 ^ 53) :
    upper - since ≤ targetPoints * bucketMsFor since upper := by
  obtain ⟨span, hcast⟩ := Int.eq_ofNat_of_zero_le (sub_nonneg.mpr hle)
  have hlt : span < 2 ^ 53 := by
    rw [hcast] at hspan
    exact_mod_cast hspan
  have hround : max 0 (Binary64.round ((upper - since : ℤ))) = span := by
    rw [hcast, Int.cast_natCast, Binary64.round_natCast hlt]
    exact max_eq_right (Nat.cast_nonneg span)
  have hceil := Binary64.ceil_round_div hlt (show 0 < 500 by decide) (by norm_num)
  have hbucket : ⌈(span : ℚ) / (500 : ℕ)⌉ ≤ bucketMsFor since upper := by
    rw [bucketMsFor, hround, targetPoints, ← hceil]
    exact le_max_right _ _
  have hquotient : (span : ℚ) / (500 : ℕ) ≤ bucketMsFor since upper :=
    (Int.le_ceil _).trans (by exact_mod_cast hbucket)
  rw [hcast, targetPoints]
  rw [div_le_iff₀ (by norm_num)] at hquotient
  have hproduct : (span : ℤ) ≤ bucketMsFor since upper * 500 := by
    exact_mod_cast hquotient
  push_cast
  linarith

/-- Both roundings of a long window lose less than a bucket. -/
theorem safe_le_bucketMsFor (hspan : 2 ^ 53 ≤ upper - since) :
    2 ^ 53 ≤ targetPoints * bucketMsFor since upper := by
  have hspanQ : (2 : ℚ) ^ 53 ≤ (upper - since : ℤ) := by exact_mod_cast hspan
  have hfirst := Binary64.sub_le_round
    (show (1 : ℚ) ≤ (upper - since : ℤ) by linarith)
  have hrounded : (2 : ℚ) ^ 53 - 1 ≤ Binary64.round ((upper - since : ℤ)) := by
    linarith
  have hmax : max 0 (Binary64.round ((upper - since : ℤ))) =
      Binary64.round ((upper - since : ℤ)) := max_eq_right (by linarith)
  have hsecond := Binary64.sub_le_round
    (show (1 : ℚ) ≤ Binary64.round ((upper - since : ℤ)) / 500 by linarith)
  have hquotient : ((2 : ℚ) ^ 53 - 2) / 500 ≤
      Binary64.round (Binary64.round ((upper - since : ℤ)) / 500) := by
    linarith
  have hbucket : ⌈Binary64.round (Binary64.round ((upper - since : ℤ)) / 500)⌉ ≤
      bucketMsFor since upper := by
    rw [bucketMsFor, hmax, targetPoints]
    exact le_max_right _ _
  have hbound : ((2 : ℚ) ^ 53 - 2) / 500 ≤ bucketMsFor since upper :=
    hquotient.trans ((Int.le_ceil _).trans (by exact_mod_cast hbucket))
  rw [div_le_iff₀ (by norm_num)] at hbound
  have hproduct : 2 ^ 53 - 2 ≤ bucketMsFor since upper * 500 := by
    exact_mod_cast hbound
  simp only [targetPoints]
  omega

/-- 500 buckets reach over the part of the window in which there can be rows. -/
theorem window_le_buckets (hle : since ≤ upper) {first second : ℤ}
    (hfirst : SafeTimestamp first) (hsecond : SafeTimestamp second)
    (hsince : since ≤ first) (hupper : second ≤ upper) :
    second - first ≤ targetPoints * bucketMsFor since upper := by
  rcases lt_or_ge (upper - since) (2 ^ 53) with hsmall | hlarge
  · have hspan := span_le_bucketMsFor hle hsmall
    linarith
  · have hspan := safe_le_bucketMsFor hlarge
    linarith [hfirst.1, hsecond.2]

/-- Two rows of a window are at most 500 buckets apart. -/
theorem keys_near (hle : since ≤ upper) {first second : ℤ}
    (hfirst : SafeTimestamp first) (hsecond : SafeTimestamp second)
    (hsince : since ≤ first) (hupper : second ≤ upper) :
    second / bucketMsFor since upper ≤
      first / bucketMsFor since upper + targetPoints := by
  have hpos := bucketMsFor_pos since upper
  have hspan := window_le_buckets hle hfirst hsecond hsince hupper
  have hmono : second / bucketMsFor since upper ≤
      (first + targetPoints * bucketMsFor since upper) / bucketMsFor since upper :=
    Int.ediv_le_ediv hpos (by linarith)
  rwa [Int.add_mul_ediv_right _ _ hpos.ne'] at hmono

/-! ## Points in order -/

/-- The shape of a downsampled series of a window: what its points say about
time, for the timestamps of the rows it has been made of. -/
structure Downsamples {Point : Type} (stamp : Point → ℚ) (points : List Point)
    (times : List ℤ) (bucket since upper : ℤ) : Prop where
  increasing : points.Pairwise fun p q => stamp p < stamp q
  aligned : ∀ p ∈ points, (∃ k : ℤ, stamp p = k * bucket) ∧
    since - bucket < stamp p ∧ stamp p ≤ upper
  few : points.length ≤ targetPoints + 1
  covered : ∀ time ∈ times, ∃! p, p ∈ points ∧ stamp p ≤ time ∧
    time < stamp p + bucket

section Series

variable {α Point : Type} {time : α → ℤ} {stamp : Point → ℚ}
variable {point : ℤ → List α → Point} {rows : List α} {row : α}

/-- The bucket of a row is the one whose start and end enclose its time. -/
theorem bucketOf_iff (hbucket : 0 < bucket) (hsafe : SafeTimestamp timestamp) :
    bucketOf bucket timestamp = key ↔
      key * bucket ≤ timestamp ∧ timestamp < key * bucket + bucket := by
  rw [bucketOf_eq hbucket hsafe]
  constructor
  · rintro rfl
    exact ⟨Int.ediv_mul_le _ hbucket.ne', Int.lt_ediv_add_one_mul_self _ hbucket |>.trans_eq
      (by ring)⟩
  · rintro ⟨hlow, hhigh⟩
    apply le_antisymm
    · rw [← Int.lt_add_one_iff, Int.ediv_lt_iff_lt_mul hbucket]
      linarith
    · exact (Int.le_ediv_iff_mul_le hbucket).mpr hlow

theorem key_safe (hbucket : 0 < bucket)
    (hsafe : ∀ row ∈ rows, SafeTimestamp (time row))
    (hkey : key ∈ keys (fun row => bucketOf bucket (time row)) rows) :
    bucketStart bucket key = key * bucket := by
  obtain ⟨row, hrow, rfl⟩ := mem_keys.mp hkey
  rw [bucketStart_eq hbucket (hsafe row hrow) (bucketOf_eq hbucket (hsafe row hrow)).symm]

theorem bucketOf_iff_between (hbucket : 0 < bucket) (hsafe : SafeTimestamp timestamp)
    (hstart : bucketStart bucket key = key * bucket) :
    bucketOf bucket timestamp = key ↔ bucketStart bucket key ≤ timestamp ∧
      (timestamp : ℚ) < bucketStart bucket key + bucket := by
  rw [hstart, bucketOf_iff hbucket hsafe]
  constructor
  · rintro ⟨hlow, hhigh⟩
    exact ⟨by exact_mod_cast hlow, by exact_mod_cast hhigh⟩
  · rintro ⟨hlow, hhigh⟩
    exact ⟨by exact_mod_cast hlow, by exact_mod_cast hhigh⟩

theorem starts_increasing (hbucket : 0 < bucket)
    (hsafe : ∀ row ∈ rows, SafeTimestamp (time row)) :
    (keys (fun row => bucketOf bucket (time row)) rows).Pairwise
      fun key later => bucketStart bucket key < bucketStart bucket later := by
  refine (keys_sorted _ _).imp_of_mem fun hkey hlater hlt => ?_
  rw [key_safe hbucket hsafe hkey, key_safe hbucket hsafe hlater]
  exact_mod_cast mul_lt_mul_of_pos_right hlt hbucket

/-- The groups come in the order of their keys, and sorting the points by
their timestamps changes nothing. -/
theorem sorted_points (stamp : Point → ℚ) (point : ℤ → List α → Point)
    (hbucket : 0 < bucket)
    (hsafe : ∀ row ∈ rows, SafeTimestamp (time row))
    (hstamp : ∀ key rows, stamp (point key rows) = bucketStart bucket key) :
    (((groupBy (fun row => bucketOf bucket (time row)) rows).map
      fun entry => point entry.1 entry.2).insertionSort
        fun p q => stamp p ≤ stamp q) =
    (keys (fun row => bucketOf bucket (time row)) rows).map fun key =>
      point key (group (fun row => bucketOf bucket (time row)) rows key) := by
  rw [groupBy, List.map_map]
  apply List.Pairwise.insertionSort_eq
  rw [List.pairwise_map]
  refine (starts_increasing hbucket hsafe).imp fun hlt => ?_
  simp only [Function.comp_apply, hstamp]
  exact hlt.le

/-- The rows of a point are those between its timestamp and the next start. -/
theorem group_eq_between (hbucket : 0 < bucket)
    (hsafe : ∀ row ∈ rows, SafeTimestamp (time row))
    (hkey : key ∈ keys (fun row => bucketOf bucket (time row)) rows) :
    group (fun row => bucketOf bucket (time row)) rows key =
      rows.filter fun row => bucketStart bucket key ≤ time row ∧
        (time row : ℚ) < bucketStart bucket key + bucket := by
  apply List.filter_congr
  intro row hrow
  rw [decide_eq_decide]
  exact bucketOf_iff_between hbucket (hsafe row hrow) (key_safe hbucket hsafe hkey)

/-- Different numbers none of which is more than `width` above another. -/
theorem length_le_of_near {ks : List ℤ} {width : ℕ} (hnodup : ks.Nodup)
    (hnear : ∀ k ∈ ks, ∀ later ∈ ks, later ≤ k + width) : ks.length ≤ width + 1 := by
  cases hks : ks with
  | nil => simp
  | cons first rest =>
      obtain ⟨least, hleast, hmin⟩ := ks.toFinset.exists_min_image id
        ⟨first, by simp [hks]⟩
      have hsubset : ks.toFinset ⊆ Finset.Icc least (least + width) := by
        intro k hk
        exact Finset.mem_Icc.mpr ⟨hmin k hk,
          hnear least (List.mem_toFinset.mp hleast) k (List.mem_toFinset.mp hk)⟩
      have hcard := Finset.card_le_card hsubset
      rw [List.toFinset_card_of_nodup hnodup, Int.card_Icc] at hcard
      rw [← hks]
      omega

theorem downsamples_points (stamp : Point → ℚ) (point : ℤ → List α → Point)
    (hle : since ≤ upper)
    (hsafe : ∀ row ∈ rows, SafeTimestamp (time row))
    (hwindow : ∀ row ∈ rows, since ≤ time row ∧ time row ≤ upper)
    (hstamp : ∀ key rows, stamp (point key rows) =
      bucketStart (bucketMsFor since upper) key) :
    Downsamples stamp
      ((keys (fun row => bucketOf (bucketMsFor since upper) (time row)) rows).map
        fun key => point key
          (group (fun row => bucketOf (bucketMsFor since upper) (time row)) rows key))
      (rows.map time) (bucketMsFor since upper) since upper := by
  have hbucket := bucketMsFor_pos since upper
  set bucket := bucketMsFor since upper with hb
  set ks := keys (fun row => bucketOf bucket (time row)) rows
  constructor
  · rw [List.pairwise_map]
    refine (starts_increasing hbucket hsafe).imp fun hlt => ?_
    simpa only [hstamp] using hlt
  · intro p hp
    obtain ⟨key, hkey, rfl⟩ := List.mem_map.mp hp
    rw [hstamp, key_safe hbucket hsafe hkey]
    obtain ⟨row, hrow, hbucketOf⟩ := mem_keys.mp hkey
    have hbetween := (bucketOf_iff hbucket (hsafe row hrow)).mp hbucketOf
    have hrowWindow := hwindow row hrow
    have hlow : since - bucket < key * bucket := by linarith
    have hhigh : key * bucket ≤ upper := by linarith
    exact ⟨⟨key, rfl⟩, by exact_mod_cast hlow, by exact_mod_cast hhigh⟩
  · rw [List.length_map]
    refine length_le_of_near (keys_nodup _ _) fun k hk later hlater => ?_
    obtain ⟨row, hrow, rfl⟩ := mem_keys.mp hk
    obtain ⟨other, hother, rfl⟩ := mem_keys.mp hlater
    rw [bucketOf_eq hbucket (hsafe row hrow), bucketOf_eq hbucket (hsafe other hother)]
    exact keys_near hle (hsafe row hrow) (hsafe other hother) (hwindow row hrow).1
      (hwindow other hother).2
  · intro t ht
    obtain ⟨row, hrow, rfl⟩ := List.mem_map.mp ht
    have hkey : bucketOf bucket (time row) ∈ ks := mem_keys.mpr ⟨row, hrow, rfl⟩
    have hinside : ∀ key ∈ ks, (bucketOf bucket (time row) = key ↔
        bucketStart bucket key ≤ time row ∧
          (time row : ℚ) < bucketStart bucket key + bucket) := fun key hk =>
      bucketOf_iff_between hbucket (hsafe row hrow) (key_safe hbucket hsafe hk)
    refine ⟨_, ⟨List.mem_map_of_mem hkey, ?_⟩, ?_⟩
    · rw [hstamp]
      exact (hinside _ hkey).mp rfl
    · rintro p ⟨hp, hbetween⟩
      obtain ⟨key, hk, rfl⟩ := List.mem_map.mp hp
      rw [hstamp] at hbetween
      rw [(hinside key hk).mpr hbetween]

end Series

/-! ## The two series -/

def MetricsTable.between (table : MetricsTable) (start : ℚ) (bucket : ℤ) :
    MetricsTable :=
  table.filter fun row => start ≤ row.timestamp ∧ (row.timestamp : ℚ) < start + bucket

/-- The values of a point of one process, from the rows of its bucket. -/
structure ProcessValues (point : MetricPoint) (rows : List MetricRecord) : Prop where
  nonempty : rows ≠ []
  cpu : point.cpu = average (rows.map MetricRecord.cpu)
  memory : point.memory = average (rows.map fun row => (row.memory : ℚ))
  restartCount : point.restartCount ∈ rows.map MetricRecord.restartCount
  largest : ∀ row ∈ rows, row.restartCount ≤ point.restartCount

/-- The rows of one timestamp. -/
def rowsAt (rows : List MetricRecord) (timestamp : ℤ) : List MetricRecord :=
  rows.filter fun row => row.timestamp = timestamp

/-- The values of a point of the aggregate: averages over the timestamps of
its bucket of the sums over all rows of a timestamp. -/
structure AggregateValues (point : AggregatePoint) (rows : List MetricRecord) :
    Prop where
  nonempty : rows ≠ []
  cpu : point.cpu = average ((rows.map MetricRecord.timestamp).dedup.map
    fun timestamp => ((rowsAt rows timestamp).map MetricRecord.cpu).sum)
  memory : point.memory = average ((rows.map MetricRecord.timestamp).dedup.map
    fun timestamp => ((rowsAt rows timestamp).map fun row => (row.memory : ℚ)).sum)

theorem max_getD_spec {values : List ℤ} (hne : values ≠ []) :
    values.max?.getD 0 ∈ values ∧ ∀ value ∈ values, value ≤ values.max?.getD 0 := by
  cases hmax : values.max? with
  | none => exact absurd (List.max?_eq_none_iff.mp hmax) hne
  | some largest => exact List.max?_eq_some_iff.mp hmax

theorem window_safe (hsafe : ∀ row ∈ table, SafeTimestamp row.timestamp) :
    ∀ row ∈ table.window since upper, SafeTimestamp row.timestamp :=
  fun row hrow => hsafe row (List.mem_of_mem_filter hrow)

theorem window_bounds : ∀ row ∈ table.window since upper,
    since ≤ row.timestamp ∧ row.timestamp ≤ upper := by
  intro row hrow
  simpa using (List.mem_filter.mp hrow).2

theorem processPoints_eq (name : String) (now : ℤ)
    (hsafe : ∀ row ∈ table, SafeTimestamp row.timestamp) :
    table.seriesForProcess name since (some upper) now =
      (keys (fun row => bucketOf (bucketMsFor since upper) row.timestamp)
        ((table.window since upper).named name)).map fun key =>
          MetricsTable.seriesPoint (bucketMsFor since upper) key
            (group (fun row => bucketOf (bucketMsFor since upper) row.timestamp)
              ((table.window since upper).named name) key) := by
  have hrows : ∀ row ∈ (table.window since upper).named name,
      SafeTimestamp row.timestamp := fun row hrow =>
    window_safe hsafe row (List.mem_of_mem_filter hrow)
  simp only [MetricsTable.seriesForProcess, MetricsTable.seriesBuckets,
    Option.getD_some, List.map_map]
  exact sorted_points MetricPoint.timestamp
    (MetricsTable.seriesPoint (bucketMsFor since upper)) (bucketMsFor_pos since upper)
    hrows fun _ _ => rfl

theorem processSeries_downsamples (name : String) (now : ℤ) (hle : since ≤ upper)
    (hsafe : ∀ row ∈ table, SafeTimestamp row.timestamp) :
    Downsamples MetricPoint.timestamp
      (table.seriesForProcess name since (some upper) now)
      (((table.window since upper).named name).map MetricRecord.timestamp)
      (bucketMsFor since upper) since upper := by
  rw [processPoints_eq name now hsafe]
  exact downsamples_points MetricPoint.timestamp _ hle
    (fun row hrow => window_safe hsafe row (List.mem_of_mem_filter hrow))
    (fun row hrow => window_bounds row (List.mem_of_mem_filter hrow)) fun _ _ => rfl

theorem processSeries_values (name : String) (now : ℤ)
    (hsafe : ∀ row ∈ table, SafeTimestamp row.timestamp) :
    ∀ point ∈ table.seriesForProcess name since (some upper) now,
      ProcessValues point (MetricsTable.between ((table.window since upper).named name)
        point.timestamp (bucketMsFor since upper)) := by
  intro point hpoint
  rw [processPoints_eq name now hsafe] at hpoint
  obtain ⟨key, hkey, rfl⟩ := List.mem_map.mp hpoint
  have hgroup : group _ ((table.window since upper).named name) key =
      MetricsTable.between _ (bucketStart _ key) _ :=
    group_eq_between (bucketMsFor_pos since upper)
      (fun row hrow => window_safe hsafe row (List.mem_of_mem_filter hrow)) hkey
  have hne := group_ne_nil hkey
  have hmax := max_getD_spec (List.map_eq_nil_iff (f := MetricRecord.restartCount)
    |>.not.mpr hne)
  rw [hgroup] at hne hmax
  simp only [MetricsTable.seriesPoint, hgroup]
  exact {
    nonempty := hne
    cpu := rfl
    memory := rfl
    restartCount := hmax.1
    largest := fun row hrow => hmax.2 _ (List.mem_map_of_mem hrow) }

/-! ## The aggregate -/

theorem mem_sampleTotals {total : ℤ × ℚ × ℚ}
    (htotal : total ∈ table.sampleTotals since upper) :
    ∃ row ∈ table.window since upper, row.timestamp = total.1 := by
  obtain ⟨entry, hentry, rfl⟩ := List.mem_map.mp htotal
  exact mem_keys.mp (mem_groupBy.mp hentry).1

theorem totals_safe (hsafe : ∀ row ∈ table, SafeTimestamp row.timestamp) :
    ∀ total ∈ table.sampleTotals since upper, SafeTimestamp total.1 := by
  intro total htotal
  obtain ⟨row, hrow, heq⟩ := mem_sampleTotals htotal
  exact heq ▸ window_safe hsafe row hrow

theorem aggregatePoints_eq (now : ℤ)
    (hsafe : ∀ row ∈ table, SafeTimestamp row.timestamp) :
    table.aggregateSeries since (some upper) now =
      (keys (fun total => bucketOf (bucketMsFor since upper) total.1)
        (table.sampleTotals since upper)).map fun key =>
          MetricsTable.aggregatePoint (bucketMsFor since upper) key
            (group (fun total => bucketOf (bucketMsFor since upper) total.1)
              (table.sampleTotals since upper) key) := by
  simp only [MetricsTable.aggregateSeries, MetricsTable.aggregateBuckets,
    Option.getD_some, List.map_map]
  exact sorted_points AggregatePoint.timestamp
    (MetricsTable.aggregatePoint (bucketMsFor since upper)) (bucketMsFor_pos since upper)
    (totals_safe hsafe) fun _ _ => rfl

theorem aggregateSeries_downsamples (now : ℤ) (hle : since ≤ upper)
    (hsafe : ∀ row ∈ table, SafeTimestamp row.timestamp) :
    Downsamples AggregatePoint.timestamp (table.aggregateSeries since (some upper) now)
      ((table.window since upper).map MetricRecord.timestamp)
      (bucketMsFor since upper) since upper := by
  have htotals : ∀ total ∈ table.sampleTotals since upper,
      since ≤ total.1 ∧ total.1 ≤ upper := by
    intro total htotal
    obtain ⟨row, hrow, heq⟩ := mem_sampleTotals htotal
    exact heq ▸ window_bounds row hrow
  have hpoints := downsamples_points AggregatePoint.timestamp
    (MetricsTable.aggregatePoint (bucketMsFor since upper)) hle (totals_safe hsafe)
    htotals fun _ _ => rfl
  rw [aggregatePoints_eq now hsafe]
  refine { hpoints with covered := fun time htime => hpoints.covered time ?_ }
  obtain ⟨row, hrow, rfl⟩ := List.mem_map.mp htime
  have hkey : row.timestamp ∈ keys MetricRecord.timestamp (table.window since upper) :=
    mem_keys.mpr ⟨row, hrow, rfl⟩
  exact List.mem_map.mpr ⟨_, List.mem_map.mpr
    ⟨(row.timestamp, group _ _ _), mem_groupBy.mpr ⟨hkey, rfl⟩, rfl⟩, rfl⟩

theorem sampleTotals_eq (table : MetricsTable) (since upper : ℤ) :
    table.sampleTotals since upper =
      (keys MetricRecord.timestamp (table.window since upper)).map fun timestamp =>
        (timestamp,
          ((rowsAt (table.window since upper) timestamp).map MetricRecord.cpu).sum,
          ((rowsAt (table.window since upper) timestamp).map
            fun row => (row.memory : ℚ)).sum) := by
  rw [MetricsTable.sampleTotals, groupBy, List.map_map]
  rfl

/-- The timestamps of a part of the rows which is cut out by time. -/
theorem keys_filter_perm (rows : List MetricRecord) (inside : ℤ → Bool) :
    ((keys MetricRecord.timestamp rows).filter inside).Perm
      ((rows.filter fun row => inside row.timestamp).map
        MetricRecord.timestamp).dedup := by
  rw [List.perm_ext_iff_of_nodup ((keys_nodup _ _).filter _) (List.nodup_dedup _)]
  intro timestamp
  simp only [List.mem_filter, mem_keys, List.mem_dedup, List.mem_map]
  constructor
  · rintro ⟨⟨row, hrow, rfl⟩, hinside⟩
    exact ⟨row, ⟨hrow, hinside⟩, rfl⟩
  · rintro ⟨row, ⟨hrow, hinside⟩, rfl⟩
    exact ⟨⟨row, hrow, rfl⟩, hinside⟩

/-- An average over the sums of the timestamps inside is an average over the
timestamps of the rows inside. -/
theorem average_totals (rows : List MetricRecord) (inside : ℤ → Bool)
    (value : List MetricRecord → ℚ) :
    average (((keys MetricRecord.timestamp rows).filter inside).map
      fun timestamp => value (rowsAt rows timestamp)) =
    average (((rows.filter fun row => inside row.timestamp).map
      MetricRecord.timestamp).dedup.map fun timestamp =>
        value (rowsAt (rows.filter fun row => inside row.timestamp) timestamp)) := by
  have hsame : ∀ timestamp, inside timestamp = true →
      rowsAt (rows.filter fun row => inside row.timestamp) timestamp =
        rowsAt rows timestamp := by
    intro timestamp hinside
    rw [rowsAt, rowsAt, List.filter_filter]
    apply List.filter_congr
    intro row _
    by_cases heq : row.timestamp = timestamp
    · simp [heq, hinside]
    · simp [heq]
  rw [average_perm ((keys_filter_perm rows inside).map _)]
  congr 1
  apply List.map_congr_left
  intro timestamp hmem
  obtain ⟨row, hrow, rfl⟩ := List.mem_map.mp (List.mem_dedup.mp hmem)
  rw [hsame row.timestamp (List.mem_filter.mp hrow).2]

theorem average_sampleTotals (table : MetricsTable) (since upper : ℤ)
    (inside : ℤ → Bool) (pick : ℤ × ℚ × ℚ → ℚ)
    (value : List MetricRecord → ℚ)
    (hpick : ∀ timestamp rows, pick (timestamp, (rows.map MetricRecord.cpu).sum,
      (rows.map fun row => (row.memory : ℚ)).sum) = value rows) :
    average (((table.sampleTotals since upper).filter fun total => inside total.1).map
      pick) =
    average ((((table.window since upper).filter fun row => inside row.timestamp).map
      MetricRecord.timestamp).dedup.map fun timestamp =>
        value (rowsAt ((table.window since upper).filter fun row =>
          inside row.timestamp) timestamp)) := by
  rw [sampleTotals_eq, List.filter_map, List.map_map, ← average_totals]
  congr 1
  apply List.map_congr_left
  intro timestamp _
  exact hpick timestamp _

theorem aggregateSeries_values (now : ℤ)
    (hsafe : ∀ row ∈ table, SafeTimestamp row.timestamp) :
    ∀ point ∈ table.aggregateSeries since (some upper) now,
      AggregateValues point (MetricsTable.between (table.window since upper)
        point.timestamp (bucketMsFor since upper)) := by
  intro point hpoint
  rw [aggregatePoints_eq now hsafe] at hpoint
  obtain ⟨key, hkey, rfl⟩ := List.mem_map.mp hpoint
  have hgroup := group_eq_between (bucketMsFor_pos since upper) (totals_safe hsafe) hkey
  have hne : MetricsTable.between (table.window since upper)
      (bucketStart (bucketMsFor since upper) key) (bucketMsFor since upper) ≠ [] := by
    obtain ⟨total, htotal⟩ := List.exists_mem_of_ne_nil _ (group_ne_nil hkey)
    rw [hgroup, List.mem_filter] at htotal
    obtain ⟨row, hrow, heq⟩ := mem_sampleTotals htotal.1
    exact List.ne_nil_of_mem (List.mem_filter.mpr ⟨hrow, heq ▸ htotal.2⟩)
  let inside : ℤ → Bool := fun timestamp =>
    bucketStart (bucketMsFor since upper) key ≤ timestamp ∧
      (timestamp : ℚ) < bucketStart (bucketMsFor since upper) key +
        bucketMsFor since upper
  have hcpu := average_sampleTotals table since upper inside (fun total => total.2.1)
    (fun rows => (rows.map MetricRecord.cpu).sum) fun _ _ => rfl
  have hmemory := average_sampleTotals table since upper inside (fun total => total.2.2)
    (fun rows => (rows.map fun row => (row.memory : ℚ)).sum) fun _ _ => rfl
  refine ⟨hne, ?_, ?_⟩
  · simp only [MetricsTable.aggregatePoint, hgroup]
    exact hcpu
  · simp only [MetricsTable.aggregatePoint, hgroup]
    exact hmemory

/-- Both series of every window, with the end given or the present.  The sums
and averages are exact rationals; SQLite computes them in doubles, so a point of
the code may differ from the exact one by the rounding of its additions. -/
theorem chartSeries_exact (table : MetricsTable) (name : String) (since : ℤ)
    (untilMs : Option ℤ) (now : ℤ)
    (hsafe : ∀ row ∈ table, SafeTimestamp row.timestamp)
    (hle : since ≤ untilMs.getD now) :
    (Downsamples MetricPoint.timestamp (table.seriesForProcess name since untilMs now)
        (((table.window since (untilMs.getD now)).named name).map
          MetricRecord.timestamp)
        (bucketMsFor since (untilMs.getD now)) since (untilMs.getD now) ∧
      ∀ point ∈ table.seriesForProcess name since untilMs now,
        ProcessValues point (MetricsTable.between
          ((table.window since (untilMs.getD now)).named name) point.timestamp
          (bucketMsFor since (untilMs.getD now)))) ∧
    (Downsamples AggregatePoint.timestamp (table.aggregateSeries since untilMs now)
        ((table.window since (untilMs.getD now)).map MetricRecord.timestamp)
        (bucketMsFor since (untilMs.getD now)) since (untilMs.getD now) ∧
      ∀ point ∈ table.aggregateSeries since untilMs now,
        AggregateValues point (MetricsTable.between
          (table.window since (untilMs.getD now)) point.timestamp
          (bucketMsFor since (untilMs.getD now)))) :=
  ⟨⟨processSeries_downsamples name now hle hsafe, processSeries_values name now hsafe⟩,
    aggregateSeries_downsamples now hle hsafe, aggregateSeries_values now hsafe⟩

def chartSample (timestamp : ℤ) : MetricRecord where
  pmId := 0
  name := "web"
  status := "online"
  cpu := 10
  memory := 1024
  uptime := 0
  restartCount := 0
  timestamp := timestamp

theorem chartSeries_exact_three_rows :
    Downsamples MetricPoint.timestamp
      (MetricsTable.seriesForProcess
        [chartSample 999, chartSample 1000, chartSample 60000] "web" 0 (some 60000)
        60000)
      [999, 1000, 60000] 120 0 60000 := by
  have hbucket : bucketMsFor 0 60000 = 120 := by decide +kernel
  have hseries := (chartSeries_exact
    [chartSample 999, chartSample 1000, chartSample 60000] "web" 0 (some 60000) 60000
    (by simp [SafeTimestamp, chartSample]) (by decide)).1.1
  simp only [Option.getD_some, hbucket] at hseries
  exact hseries

/-! ## `historyController.series` -/

inductive HistoryRange
  | m15 | m30 | h1 | h6 | h12 | h24 | d7 | d30
deriving DecidableEq, Repr

def HistoryRange.ms : HistoryRange → ℤ
  | .m15 => 900000
  | .m30 => 1800000
  | .h1 => 3600000
  | .h6 => 21600000
  | .h12 => 43200000
  | .h24 => 86400000
  | .d7 => 604800000
  | .d30 => 2592000000

/-- The query once `historyQuerySchema` has parsed it; a given bound is not
negative. -/
structure HistoryQuery where
  name : Option String
  range : HistoryRange
  since : Option ℕ
  untilMs : Option ℕ
deriving DecidableEq, Repr

inductive HistoryPoints
  | process (name : String) (points : List MetricPoint)
  | aggregate (points : List AggregatePoint)
deriving DecidableEq, Repr

structure HistoryView where
  since : ℤ
  untilMs : ℤ
  points : HistoryPoints
deriving DecidableEq, Repr

def historySeries (table : MetricsTable) (query : HistoryQuery) (now : ℤ) :
    HistoryView :=
  let untilMs := (query.untilMs.map Int.ofNat).getD now
  let since := (query.since.map Int.ofNat).getD (untilMs - query.range.ms)
  { since, untilMs
    points :=
      match query.name with
      | some name => .process name (table.seriesForProcess name since (some untilMs) now)
      | none => .aggregate (table.aggregateSeries since (some untilMs) now) }

def HistoryPoints.length : HistoryPoints → ℕ
  | .process _ points => points.length
  | .aggregate points => points.length

theorem seriesForProcess_eq_nil (name : String) (now : ℤ) (hlt : upper < since) :
    table.seriesForProcess name since (some upper) now = [] ∧
      table.aggregateSeries since (some upper) now = [] := by
  have hempty : table.window since upper = [] := by
    refine List.filter_eq_nil_iff.mpr fun row _ => ?_
    simp only [decide_eq_true_eq, not_and, not_le]
    intro hsince
    linarith
  constructor
  · simp [MetricsTable.seriesForProcess, MetricsTable.seriesBuckets, hempty,
      MetricsTable.named, groupBy, keys]
  · simp [MetricsTable.aggregateSeries, MetricsTable.aggregateBuckets,
      MetricsTable.sampleTotals, hempty, groupBy, keys]

/-- Whatever window is asked for, the chart receives few points. -/
theorem historySeries_few (query : HistoryQuery) (now : ℤ)
    (hsafe : ∀ row ∈ table, SafeTimestamp row.timestamp) :
    (historySeries table query now).points.length ≤ targetPoints + 1 := by
  simp only [historySeries]
  generalize (query.untilMs.map Int.ofNat).getD now = untilMs
  generalize (query.since.map Int.ofNat).getD (untilMs - query.range.ms) = since
  rcases le_or_gt since untilMs with hle | hlt
  · cases query.name with
    | some name => exact (processSeries_downsamples name now hle hsafe).few
    | none => exact (aggregateSeries_downsamples now hle hsafe).few
  · cases query.name with
    | some name =>
        simp [HistoryPoints.length, (seriesForProcess_eq_nil name now hlt).1]
    | none =>
        simp [HistoryPoints.length, (seriesForProcess_eq_nil "" now hlt).2]

end Pm2Manager
