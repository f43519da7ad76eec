import Mathlib.Algebra.BigOperators.Ring.List
import Pm2Manager.SeriesBuckets

/-!
# The overall chart and the charts of the processes

The aggregate adds up all rows of a timestamp before it averages, while the
series of a process averages its rows one by one.  Where a name has several
instances, the second is the average of an instance and not of the name.
-/

namespace Pm2Manager

open Grouping

variable {table : MetricsTable} {since upper key : ℤ} {rows : List MetricRecord}
variable {name : String}

/-! ## A bucket -/

def MetricsTable.bucketRows (table : MetricsTable) (since upper key : ℤ) :
    List MetricRecord :=
  (table.window since upper).filter fun row =>
    bucketOf (bucketMsFor since upper) row.timestamp = key

def namesOf (rows : List MetricRecord) : List String :=
  (rows.map MetricRecord.name).dedup

def timestampsOf (rows : List MetricRecord) : List ℤ :=
  (rows.map MetricRecord.timestamp).dedup

def rowsOf (rows : List MetricRecord) (name : String) : List MetricRecord :=
  rows.filter fun row => row.name = name

/-- Every name has a sample at every sampled timestamp. -/
def Covered (rows : List MetricRecord) : Prop :=
  ∀ name ∈ namesOf rows, ∀ timestamp ∈ timestampsOf rows,
    ∃ row ∈ rows, row.name = name ∧ row.timestamp = timestamp

def pointAt {Point : Type} (points : List (ℤ × Point)) (key : ℤ) : Option Point :=
  (points.find? fun entry => entry.1 = key).map Prod.snd

/-- At one bucket the overall value is the sum of the values of the names. -/
def ChartsAgree (table : MetricsTable) (since upper key : ℤ) : Prop :=
  ∃ (overall : AggregatePoint) (ofName : String → MetricPoint),
    pointAt (table.aggregateBuckets since upper) key = some overall ∧
    (∀ name ∈ namesOf (table.bucketRows since upper key),
      pointAt (table.seriesBuckets name since upper) key = some (ofName name)) ∧
    overall.cpu = ((namesOf (table.bucketRows since upper key)).map
      fun name => (ofName name).cpu).sum ∧
    overall.memory = ((namesOf (table.bucketRows since upper key)).map
      fun name => (ofName name).memory).sum

/-- What the rows beyond one for each timestamp would add to the sum of a
name, were they counted. -/
def surplus (value : MetricRecord → ℚ) (rows : List MetricRecord) : ℚ :=
  ((namesOf rows).map fun name =>
    ((rowsOf rows name).map value).sum *
      ((rowsOf rows name).length - (timestampsOf rows).length) /
        (rowsOf rows name).length).sum

/-- One row at each sampled timestamp. -/
def OneInstance (rows : List MetricRecord) (name : String) : Prop :=
  ∀ timestamp ∈ timestampsOf rows, (rowsAt (rowsOf rows name) timestamp).length = 1

def NoReading (rows : List MetricRecord) (name : String) : Prop :=
  ∀ row ∈ rowsOf rows name, row.cpu = 0 ∧ row.memory = 0

/-! ## Counting the rows of a name -/

theorem mem_namesOf : name ∈ namesOf rows ↔ ∃ row ∈ rows, row.name = name := by
  simp [namesOf]

theorem mem_timestampsOf {timestamp : ℤ} :
    timestamp ∈ timestampsOf rows ↔ ∃ row ∈ rows, row.timestamp = timestamp := by
  simp [timestampsOf]

theorem rowsOf_ne_nil (hname : name ∈ namesOf rows) : rowsOf rows name ≠ [] := by
  obtain ⟨row, hrow, heq⟩ := mem_namesOf.mp hname
  exact List.ne_nil_of_mem (List.mem_filter.mpr ⟨hrow, decide_eq_true heq⟩)

/-- Every row belongs to one name. -/
theorem sum_names (value : MetricRecord → ℚ) (rows : List MetricRecord) :
    ((namesOf rows).map fun name => ((rowsOf rows name).map value).sum).sum =
      (rows.map value).sum :=
  sum_groups MetricRecord.name value (List.nodup_dedup _) rows
    fun row hrow => mem_namesOf.mpr ⟨row, hrow, rfl⟩

theorem length_rowsOf (rows : List MetricRecord) (name : String) :
    ((timestampsOf rows).map fun timestamp =>
      (rowsAt (rowsOf rows name) timestamp).length).sum = (rowsOf rows name).length := by
  have hsum := sum_groups MetricRecord.timestamp (fun _ => 1)
    (List.nodup_dedup (rows.map MetricRecord.timestamp)) (rowsOf rows name)
    fun row hrow => mem_timestampsOf.mpr ⟨row, List.mem_of_mem_filter hrow, rfl⟩
  simp only [List.map_const', List.sum_replicate_nat, mul_one] at hsum
  exact hsum

/-- At least one row for each of several, and one for each when there are no
more rows than that. -/
theorem length_le_sum {α : Type} (items : List α) (count : α → ℕ)
    (hpos : ∀ item ∈ items, 1 ≤ count item) :
    items.length ≤ (items.map count).sum ∧
      ((items.map count).sum = items.length ↔ ∀ item ∈ items, count item = 1) := by
  induction items with
  | nil => simp
  | cons item rest ih =>
      have hitem := hpos item List.mem_cons_self
      obtain ⟨hle, hiff⟩ := ih fun other hother => hpos other (List.mem_cons_of_mem _ hother)
      simp only [List.map_cons, List.sum_cons, List.length_cons, List.forall_mem_cons,
        ← hiff]
      omega

theorem timestamps_le_rows (hcovered : Covered rows) (hname : name ∈ namesOf rows) :
    (timestampsOf rows).length ≤ (rowsOf rows name).length ∧
      ((rowsOf rows name).length = (timestampsOf rows).length ↔
        OneInstance rows name) := by
  have hcount := length_le_sum (timestampsOf rows)
    (fun timestamp => (rowsAt (rowsOf rows name) timestamp).length) (by
      intro timestamp htimestamp
      obtain ⟨row, hrow, hrowName, hrowTime⟩ := hcovered name hname timestamp htimestamp
      exact List.length_pos_of_mem (List.mem_filter.mpr
        ⟨List.mem_filter.mpr ⟨hrow, decide_eq_true hrowName⟩, decide_eq_true hrowTime⟩))
  rw [length_rowsOf] at hcount
  exact hcount

/-! ## The difference of the charts -/

theorem average_eq_sum_iff (value : MetricRecord → ℚ) (hrows : rows ≠ []) :
    (rows.map value).sum / (timestampsOf rows).length =
        ((namesOf rows).map fun name => average ((rowsOf rows name).map value)).sum ↔
      surplus value rows = 0 := by
  have htimes : ((timestampsOf rows).length : ℚ) ≠ 0 := by
    obtain ⟨row, hrow⟩ := List.exists_mem_of_ne_nil rows hrows
    exact_mod_cast (List.length_pos_of_mem (mem_timestampsOf.mpr ⟨row, hrow, rfl⟩)).ne'
  have hterm : ∀ name ∈ namesOf rows,
      ((rowsOf rows name).map value).sum =
        average ((rowsOf rows name).map value) * (timestampsOf rows).length +
        ((rowsOf rows name).map value).sum *
          ((rowsOf rows name).length - (timestampsOf rows).length) /
            (rowsOf rows name).length := by
    intro name hname
    have hlength : ((rowsOf rows name).length : ℚ) ≠ 0 := by
      exact_mod_cast (List.length_pos_iff.mpr (rowsOf_ne_nil hname)).ne'
    rw [average, List.length_map]
    field_simp
    ring
  have hsum : (rows.map value).sum =
      ((namesOf rows).map fun name => average ((rowsOf rows name).map value)).sum *
        (timestampsOf rows).length + surplus value rows := by
    rw [← sum_names value rows, surplus, ← List.sum_map_mul_right, ← List.sum_map_add]
    exact congrArg List.sum (List.map_congr_left hterm)
  rw [div_eq_iff htimes, hsum]
  constructor
  · intro heq
    linarith
  · intro hzero
    rw [hzero, add_zero]

/-! ## The points at a bucket -/

/-- The sums over the rows of each timestamp, averaged. -/
theorem average_bucketTotals (table : MetricsTable) (since upper key : ℤ)
    (pick : ℤ × ℚ × ℚ → ℚ) (value : MetricRecord → ℚ)
    (hpick : ∀ timestamp (rows : List MetricRecord),
      pick (timestamp, (rows.map MetricRecord.cpu).sum,
        (rows.map fun row => (row.memory : ℚ)).sum) = (rows.map value).sum) :
    average ((group (fun total => bucketOf (bucketMsFor since upper) total.1)
        (table.sampleTotals since upper) key).map pick) =
      ((table.bucketRows since upper key).map value).sum /
        (timestampsOf (table.bucketRows since upper key)).length := by
  have htotals : average ((group (fun total => bucketOf (bucketMsFor since upper) total.1)
        (table.sampleTotals since upper) key).map pick) =
      average ((timestampsOf (table.bucketRows since upper key)).map fun timestamp =>
        ((rowsAt (table.bucketRows since upper key) timestamp).map value).sum) :=
    average_sampleTotals table since upper
      (fun timestamp => bucketOf (bucketMsFor since upper) timestamp = key)
      pick (fun rows => (rows.map value).sum) hpick
  have hsum := sum_groups MetricRecord.timestamp value
    (List.nodup_dedup ((table.bucketRows since upper key).map MetricRecord.timestamp))
    (table.bucketRows since upper key)
    fun row hrow => mem_timestampsOf.mpr ⟨row, hrow, rfl⟩
  rw [htotals, average, List.length_map, ← hsum]
  rfl

theorem pointAt_groupBy {α Point : Type} (bucketKey : α → ℤ) (items : List α)
    (point : ℤ → List α → Point) (hkey : ∃ item ∈ items, bucketKey item = key) :
    pointAt ((groupBy bucketKey items).map fun entry =>
        (entry.1, point entry.1 entry.2)) key =
      some (point key (group bucketKey items key)) := by
  have hfound : ((groupBy bucketKey items).map fun entry =>
      (entry.1, point entry.1 entry.2)).find? (fun entry => entry.1 = key) =
      some (key, point key (group bucketKey items key)) := by
    cases hfind : ((groupBy bucketKey items).map fun entry =>
        (entry.1, point entry.1 entry.2)).find? (fun entry => entry.1 = key) with
    | none =>
        have hmem : (key, group bucketKey items key) ∈ groupBy bucketKey items :=
          mem_groupBy.mpr ⟨mem_keys.mpr hkey, rfl⟩
        have hnot := List.find?_eq_none.mp hfind _ (List.mem_map_of_mem hmem)
        simp at hnot
    | some found =>
        obtain ⟨entry, hentry, rfl⟩ := List.mem_map.mp (List.mem_of_find?_eq_some hfind)
        have heq : entry.1 = key := by simpa using List.find?_some hfind
        rw [(mem_groupBy.mp hentry).2, heq]
  rw [pointAt, hfound, Option.map_some]

theorem aggregateAt (hrows : table.bucketRows since upper key ≠ []) :
    pointAt (table.aggregateBuckets since upper) key =
      some (MetricsTable.aggregatePoint (bucketMsFor since upper) key
        (group (fun total => bucketOf (bucketMsFor since upper) total.1)
          (table.sampleTotals since upper) key)) := by
  obtain ⟨row, hrow⟩ := List.exists_mem_of_ne_nil _ hrows
  obtain ⟨hwindow, hkey⟩ := List.mem_filter.mp hrow
  have htotal : ∃ total ∈ table.sampleTotals since upper, total.1 = row.timestamp := by
    rw [sampleTotals_eq]
    exact ⟨_, List.mem_map_of_mem (mem_keys.mpr ⟨row, hwindow, rfl⟩), rfl⟩
  obtain ⟨total, hmem, heq⟩ := htotal
  refine pointAt_groupBy _ _ _ ⟨total, hmem, ?_⟩
  rw [heq]
  exact of_decide_eq_true hkey

theorem rowsOf_bucketRows (table : MetricsTable) (since upper key : ℤ) (name : String) :
    rowsOf (table.bucketRows since upper key) name =
      group (fun row => bucketOf (bucketMsFor since upper) row.timestamp)
        ((table.window since upper).named name) key := by
  simp only [rowsOf, MetricsTable.bucketRows, group, MetricsTable.named,
    List.filter_filter, Bool.and_comm]

theorem seriesAt (hname : name ∈ namesOf (table.bucketRows since upper key)) :
    pointAt (table.seriesBuckets name since upper) key =
      some (MetricsTable.seriesPoint (bucketMsFor since upper) key
        (rowsOf (table.bucketRows since upper key) name)) := by
  rw [rowsOf_bucketRows]
  obtain ⟨row, hrow⟩ := List.exists_mem_of_ne_nil _ (rowsOf_ne_nil hname)
  rw [rowsOf_bucketRows, mem_group] at hrow
  exact pointAt_groupBy _ _ _ ⟨row, hrow⟩

/-- Agreement, in the rows of the bucket. -/
theorem chartsAgree_iff (hrows : table.bucketRows since upper key ≠ []) :
    ChartsAgree table since upper key ↔
      surplus MetricRecord.cpu (table.bucketRows since upper key) = 0 ∧
      surplus (fun row => row.memory) (table.bucketRows since upper key) = 0 := by
  rw [← average_eq_sum_iff MetricRecord.cpu hrows,
    ← average_eq_sum_iff (fun row => (row.memory : ℚ)) hrows]
  have hcpu := average_bucketTotals table since upper key
    (fun total => total.2.1) MetricRecord.cpu fun _ _ => rfl
  have hmemory := average_bucketTotals table since upper key
    (fun total => total.2.2) (fun row => (row.memory : ℚ)) fun _ _ => rfl
  rw [← hcpu, ← hmemory]
  constructor
  · rintro ⟨overall, ofName, hoverall, hnames, hcpuEq, hmemoryEq⟩
    rw [aggregateAt hrows] at hoverall
    obtain rfl := Option.some.inj hoverall
    have hof : ∀ name ∈ namesOf (table.bucketRows since upper key),
        ofName name = MetricsTable.seriesPoint (bucketMsFor since upper) key
          (rowsOf (table.bucketRows since upper key) name) := by
      intro name hname
      have hpoint := hnames name hname
      rw [seriesAt hname] at hpoint
      exact (Option.some.inj hpoint).symm
    constructor
    · exact hcpuEq.trans (congrArg List.sum (List.map_congr_left fun name hname => by
        rw [hof name hname]
        rfl))
    · exact hmemoryEq.trans (congrArg List.sum (List.map_congr_left fun name hname => by
        rw [hof name hname]
        rfl))
  · rintro ⟨hcpuEq, hmemoryEq⟩
    exact ⟨_, _, aggregateAt hrows, fun name hname => seriesAt hname, hcpuEq, hmemoryEq⟩

/-! ## Readings which are not negative -/

theorem surplus_eq_zero_iff (value : MetricRecord → ℚ)
    (hnonneg : ∀ row ∈ rows, 0 ≤ value row) (hcovered : Covered rows) :
    surplus value rows = 0 ↔ ∀ name ∈ namesOf rows,
      OneInstance rows name ∨ ∀ row ∈ rowsOf rows name, value row = 0 := by
  have hvalues : ∀ name, ∀ x ∈ (rowsOf rows name).map value, 0 ≤ x := by
    intro name x hx
    obtain ⟨row, hrow, rfl⟩ := List.mem_map.mp hx
    exact hnonneg row (List.mem_of_mem_filter hrow)
  have hextra : ∀ name ∈ namesOf rows,
      (0 : ℚ) ≤ (rowsOf rows name).length - (timestampsOf rows).length := by
    intro name hname
    exact sub_nonneg.mpr (by exact_mod_cast (timestamps_le_rows hcovered hname).1)
  have hterm : ∀ name ∈ namesOf rows,
      (((rowsOf rows name).map value).sum *
        ((rowsOf rows name).length - (timestampsOf rows).length) /
          (rowsOf rows name).length = 0 ↔
      OneInstance rows name ∨ ∀ row ∈ rowsOf rows name, value row = 0) := by
    intro name hname
    have hlength : ((rowsOf rows name).length : ℚ) ≠ 0 := by
      exact_mod_cast (List.length_pos_iff.mpr (rowsOf_ne_nil hname)).ne'
    rw [div_eq_zero_iff, or_iff_left hlength, mul_eq_zero, or_comm, sub_eq_zero,
      Nat.cast_inj, (timestamps_le_rows hcovered hname).2]
    apply or_congr_right
    constructor
    · intro hsum row hrow
      exact List.all_zero_of_le_zero_le_of_sum_eq_zero (hvalues name) hsum
        (List.mem_map_of_mem hrow)
    · intro hzero
      rw [List.map_congr_left hzero, List.map_const', List.sum_replicate, nsmul_zero]
  rw [surplus]
  constructor
  · intro hsum name hname
    refine (hterm name hname).mp (List.all_zero_of_le_zero_le_of_sum_eq_zero ?_ hsum
      (List.mem_map_of_mem hname))
    intro x hx
    obtain ⟨other, hother, rfl⟩ := List.mem_map.mp hx
    exact div_nonneg (mul_nonneg (List.sum_nonneg (hvalues other)) (hextra other hother))
      (Nat.cast_nonneg _)
  · intro hall
    rw [List.map_congr_left fun name hname => (hterm name hname).mpr (hall name hname),
      List.map_const', List.sum_replicate, nsmul_zero]

/-- The charts of a bucket in which no name misses a sample agree exactly when
the rows beyond one a sample add nothing; for readings which are not negative,
when a name has a single instance in each sample, or no reading at all. -/
theorem chartsAgree_iff_one_instance (table : MetricsTable) (since upper key : ℤ)
    (hrows : table.bucketRows since upper key ≠ [])
    (hcovered : Covered (table.bucketRows since upper key)) :
    (ChartsAgree table since upper key ↔
      surplus MetricRecord.cpu (table.bucketRows since upper key) = 0 ∧
      surplus (fun row => row.memory) (table.bucketRows since upper key) = 0) ∧
    ((∀ row ∈ table.bucketRows since upper key, 0 ≤ row.cpu ∧ 0 ≤ row.memory) →
      (ChartsAgree table since upper key ↔
        ∀ name ∈ namesOf (table.bucketRows since upper key),
          OneInstance (table.bucketRows since upper key) name ∨
          NoReading (table.bucketRows since upper key) name)) := by
  refine ⟨chartsAgree_iff hrows, fun hnonneg => ?_⟩
  have hmemory : ∀ row ∈ table.bucketRows since upper key, (0 : ℚ) ≤ row.memory :=
    fun row hrow => by exact_mod_cast (hnonneg row hrow).2
  rw [chartsAgree_iff hrows,
    surplus_eq_zero_iff _ (fun row hrow => (hnonneg row hrow).1) hcovered,
    surplus_eq_zero_iff _ hmemory hcovered]
  constructor
  · rintro ⟨hcpuZero, hmemoryZero⟩ name hname
    rcases hcpuZero name hname with hone | hcpu
    · exact Or.inl hone
    rcases hmemoryZero name hname with hone | hmem
    · exact Or.inl hone
    exact Or.inr fun row hrow => ⟨hcpu row hrow, by exact_mod_cast hmem row hrow⟩
  · intro hall
    constructor
    · intro name hname
      exact (hall name hname).imp_right fun hnone row hrow => (hnone row hrow).1
    · intro name hname
      exact (hall name hname).imp_right fun hnone row hrow => by
        exact_mod_cast (hnone row hrow).2

/-- Two sweeps in one bucket, with a process of each of two names and two
instances of a third one, which are stopped. -/
def mixedBucket : MetricsTable :=
  [1000, 1050].flatMap fun timestamp =>
    [chartSample timestamp,
      { chartSample timestamp with pmId := 1, name := "worker", cpu := 4, memory := 512 },
      { chartSample timestamp with pmId := 2, name := "cron", cpu := 0, memory := 0 },
      { chartSample timestamp with pmId := 3, name := "cron", cpu := 0, memory := 0 }]

theorem chartsAgree_iff_one_instance_mixedBucket :
    mixedBucket.bucketRows 0 60000 8 = mixedBucket ∧ ChartsAgree mixedBucket 0 60000 8 := by
  have hbucket : mixedBucket.bucketRows 0 60000 8 = mixedBucket := by decide +kernel
  have hcovered : Covered mixedBucket := by
    unfold Covered
    decide +kernel
  have hnonneg : ∀ row ∈ mixedBucket, 0 ≤ row.cpu ∧ 0 ≤ row.memory := by decide +kernel
  have hnames : ∀ name ∈ namesOf mixedBucket,
      OneInstance mixedBucket name ∨ NoReading mixedBucket name := by
    unfold OneInstance NoReading
    decide +kernel
  refine ⟨hbucket, ((chartsAgree_iff_one_instance mixedBucket 0 60000 8 ?_ ?_).2 ?_).mpr ?_⟩
  · rw [hbucket]
    exact List.cons_ne_nil _ _
  · rw [hbucket]
    exact hcovered
  · rw [hbucket]
    exact hnonneg
  · rw [hbucket]
    exact hnames

/-- Two instances of one name, each with a reading of 10, make 20 overall and
10 in the chart of the name. -/
theorem charts_differ_two_instances :
    Covered (MetricsTable.bucketRows [chartSample 1000, chartSample 1000] 0 60000 8) ∧
    ¬ ChartsAgree [chartSample 1000, chartSample 1000] 0 60000 8 := by
  have hbucket : MetricsTable.bucketRows [chartSample 1000, chartSample 1000] 0 60000 8 =
      [chartSample 1000, chartSample 1000] := by decide +kernel
  refine ⟨by simp [hbucket, Covered, namesOf, timestampsOf], fun hagree => ?_⟩
  have hzero := ((chartsAgree_iff (by simp [hbucket])).mp hagree).1
  rw [hbucket] at hzero
  revert hzero
  decide +kernel

end Pm2Manager
