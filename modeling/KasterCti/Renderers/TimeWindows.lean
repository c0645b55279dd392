import KasterCti.ArsFlow.ReadBack
import KasterCti.Library.TimeSpec
import KasterCti.Renderers.InboundRoutes

/-!
# Time windows

A window of an ARS flow is one `GotoIfTime` with the days joined; a window of a
forwarding rule is one for each of its days, cut at midnight when it does not end after
it starts. `flow_window_agrees_iff` says when the two are open at the same moments.
-/

namespace KasterCti.Renderers

open Dialplan Lines
open ArsFlow (ClockTime Weekday weekdays weekdayIndex ConditionConfig Layout FlowNode FlowEdge
  buildTimeSpec conditionCode matchesTimePattern isDigitBetween plainStep)

/-! ## Times of day -/

/-- The minute of the day. -/
def clockMinute (time : ClockTime) : Nat := (minuteOf time.text.toList).getD 0

theorem toNat_of_between {lo hi c : Char} (h : isDigitBetween lo hi c = true) :
    lo.toNat ≤ c.toNat ∧ c.toNat ≤ hi.toNat := by
  simp only [isDigitBetween, Bool.and_eq_true, decide_eq_true_eq] at h
  exact h

theorem natOf_two (a b : Char) : natOf [a, b] = (a.toNat - 48) * 10 + (b.toNat - 48) := by
  simp [natOf, Nat.ofDigitChars_cons]
  omega

/-- A time of day, digit by digit. -/
theorem clock_digits (time : ClockTime) : ∃ a b c d : Char,
    time.text.toList = [a, b, ':', c, d] ∧
      (48 ≤ a.toNat ∧ a.toNat ≤ 50) ∧ (48 ≤ b.toNat ∧ b.toNat ≤ 57) ∧
      (48 ≤ c.toNat ∧ c.toNat ≤ 53) ∧ (48 ≤ d.toNat ∧ d.toNat ≤ 57) ∧
      (a.toNat = 50 → b.toNat ≤ 51) := by
  obtain ⟨text, valid⟩ := time
  unfold matchesTimePattern at valid
  split at valid
  · rename_i a b c d heq
    simp only [Bool.and_eq_true, Bool.or_eq_true, beq_iff_eq] at valid
    obtain ⟨⟨hours, hc⟩, hd⟩ := valid
    refine ⟨a, b, c, d, heq, ?_, ?_, toNat_of_between hc, toNat_of_between hd, ?_⟩
    · rcases hours with ⟨ha, _⟩ | ⟨rfl, _⟩
      · exact ⟨(toNat_of_between ha).1, Nat.le_succ_of_le (toNat_of_between ha).2⟩
      · exact ⟨by decide, by decide⟩
    · rcases hours with ⟨_, hb⟩ | ⟨_, hb⟩
      · exact toNat_of_between hb
      · exact ⟨(toNat_of_between hb).1, Nat.le_trans (toNat_of_between hb).2 (by decide)⟩
    · intro htwo
      rcases hours with ⟨ha, _⟩ | ⟨_, hb⟩
      · have hone := (toNat_of_between ha).2
        rw [htwo] at hone
        exact absurd hone (by decide)
      · exact (toNat_of_between hb).2
  · cases valid

theorem minuteOf_clock (time : ClockTime) :
    minuteOf time.text.toList = some (clockMinute time) := by
  obtain ⟨a, b, c, d, htext, -⟩ := clock_digits time
  rw [clockMinute, htext]
  rfl

theorem clockMinute_lt (time : ClockTime) : clockMinute time < 1440 := by
  obtain ⟨a, b, c, d, htext, ha, hb, hc, hd, hhours⟩ := clock_digits time
  rw [clockMinute, htext]
  simp only [minuteOf, Option.getD_some, natOf_two]
  omega

theorem notMem_clock (time : ClockTime) {c : Char} (hdigit : c.isDigit = false) (hc : c ≠ ':') :
    c ∉ time.text.toList := by
  intro hmem
  rcases ArsFlow.clockTime_char hmem with h | h
  · rw [h] at hdigit
    cases hdigit
  · exact hc h

/-- The leading digit decides, and behind it the rest. -/
theorem radix_lt_iff {k m n p q : Nat} (hp : p < k) (hq : q < k) :
    m * k + p < n * k + q ↔ m < n ∨ m = n ∧ p < q := by
  have hlead {m n p q : Nat} (hp : p < k) (h : m < n) : m * k + p < n * k + q :=
    calc m * k + p < m * k + k := Nat.add_lt_add_left hp _
      _ = (m + 1) * k := (Nat.succ_mul m k).symm
      _ ≤ n * k := Nat.mul_le_mul_right k h
      _ ≤ n * k + q := Nat.le_add_right _ _
  rcases Nat.lt_trichotomy m n with h | rfl | h
  · exact iff_of_true (hlead hp h) (.inl h)
  · rw [Nat.add_lt_add_iff_left, or_iff_right (Nat.lt_irrefl m), and_iff_right rfl]
  · exact iff_of_false (hlead hq h).asymm fun hlex => hlex.elim h.asymm fun hlex => h.ne' hlex.1

theorem radix_inj {k m n p q : Nat} (hp : p < k) (hq : q < k) :
    m * k + p = n * k + q ↔ m = n ∧ p = q := by
  refine ⟨fun h => ?_, fun ⟨hm, hp⟩ => by rw [hm, hp]⟩
  have hmn := radix_lt_iff (m := m) (n := n) hp hq
  have hnm := radix_lt_iff (m := n) (n := m) hq hp
  omega

/-- Texts of times are in the order of the times. -/
theorem clock_lt_iff (start stop : ClockTime) :
    start.text < stop.text ↔ clockMinute start < clockMinute stop := by
  obtain ⟨a, b, c, d, hstart, ha, hb, hc, hd, -⟩ := clock_digits start
  obtain ⟨a', b', c', d', hstop, ha', hb', hc', hd', -⟩ := clock_digits stop
  have hlt : start.text < stop.text ↔ start.text.toList < stop.text.toList := Iff.rfl
  have hchar : ∀ x y : Char, x < y ↔ x.toNat < y.toNat := fun x y => Iff.rfl
  have heq : ∀ x y : Char, x = y ↔ x.toNat = y.toNat :=
    fun x y => ⟨congrArg _, fun h => Char.toNat_inj.mp h⟩
  rw [hlt, clockMinute, clockMinute, hstart, hstop]
  simp only [List.cons_lt_cons_iff, minuteOf, Option.getD_some, natOf_two, hchar, heq,
    List.not_lt_nil, and_false, or_false, Nat.lt_irrefl, true_and, false_or]
  have hsub {x y : Nat} (hx : 48 ≤ x) (hy : 48 ≤ y) : x - 48 = y - 48 ↔ x = y := by omega
  rw [radix_lt_iff (by omega) (by omega), radix_lt_iff (by omega) (by omega),
    radix_lt_iff (by omega) (by omega), radix_inj (by omega) (by omega),
    Nat.sub_lt_sub_iff_right ha.1, Nat.sub_lt_sub_iff_right hb.1, Nat.sub_lt_sub_iff_right hc.1,
    Nat.sub_lt_sub_iff_right hd.1, hsub ha.1 ha'.1, hsub hb.1 hb'.1, hsub hc.1 hc'.1, or_assoc,
    and_assoc, ← and_or_left]

/-! ## Days of the week -/

def weekdayOf (now : Instant) : Weekday := weekdays.getD now.day .mon

theorem dayName_weekdayOf (now : Instant) : now.dayName = (weekdayOf now).text.toList := by
  have hall : ∀ day : Fin 7,
      (dayNames.getD day "").toList = (weekdays.getD day .mon).text.toList := by decide
  exact hall now.day

def dayAfter (day : Weekday) : Weekday :=
  weekdays.getD ((weekdayIndex day + 1) % weekdays.length) day

theorem nextWeekday_text (day : Weekday) : nextWeekday day.text = (dayAfter day).text := by
  cases day <;> decide

theorem weekday_text_inj {a b : Weekday} (h : a.text = b.text) : a = b := by
  cases a <;> cases b <;> first | rfl | exact absurd h (by decide)

theorem weekday_plain (day : Weekday) :
    ',' ∉ day.text.toList ∧ '&' ∉ day.text.toList ∧ day.text ≠ "*" ∧ '?' ∉ day.text.toList := by
  cases day <;> decide

theorem decide_text_eq (a b : Weekday) : decide (a.text.toList = b.text.toList) = decide (a = b) := by
  refine decide_eq_decide.mpr ⟨?_, fun h => h ▸ rfl⟩
  exact fun h => weekday_text_inj (String.toList_inj.mp h)

/-! ## The window of a flow -/

theorem dayOpen_flow {days : List Weekday} (now : Instant) :
    dayOpen (if days = [] then "*" else "&".intercalate ((days.insertionSort
      (fun a b => weekdayIndex a ≤ weekdayIndex b)).map Weekday.text)).toList now.dayName =
      (decide (days = []) || decide (weekdayOf now ∈ days)) := by
  have hperm := List.perm_insertionSort (fun a b => weekdayIndex a ≤ weekdayIndex b) days
  split
  · rename_i hnil
    simp [dayOpen, hnil]
  · rename_i hne
    have hsorted : days.insertionSort (fun a b => weekdayIndex a ≤ weekdayIndex b) ≠ [] := by
      intro hnil
      rw [hnil] at hperm
      exact hne hperm.symm.eq_nil
    rw [dayOpen_joined (by simpa using hsorted) ?_ ?_, dayName_weekdayOf]
    · simp only [hne, decide_false, Bool.false_or, List.map_map]
      refine decide_eq_decide.mpr ?_
      constructor
      · intro h
        obtain ⟨day, hday, heq⟩ := List.mem_map.mp h
        obtain rfl := weekday_text_inj (String.toList_inj.mp heq)
        exact hperm.mem_iff.mp hday
      · intro h
        exact List.mem_map.mpr ⟨_, hperm.mem_iff.mpr h, rfl⟩
    · intro hstar
      obtain ⟨day, -, hday⟩ := List.map_eq_singleton_iff.mp hstar
      exact (weekday_plain day).2.2.1 hday
    · intro text htext
      obtain ⟨day, -, rfl⟩ := List.mem_map.mp htext
      exact (weekday_plain day).2.1

theorem windowOpen_buildTimeSpec (start stop : ClockTime) (days : List Weekday) (now : Instant) :
    windowOpen (buildTimeSpec (.timeRange start stop days)).toList now =
      (inWindow (clockMinute start) (clockMinute stop) now.minute &&
        (decide (days = []) || decide (weekdayOf now ∈ days))) := by
  have htimes : ',' ∉ start.text.toList ++ '-' :: stop.text.toList := by
    simp [notMem_clock start (show ','.isDigit = false from rfl) (by decide),
      notMem_clock stop (show ','.isDigit = false from rfl) (by decide)]
  have hrange := timeOpen_range (notMem_clock start (show '-'.isDigit = false from rfl) (by decide))
    (minuteOf_clock start) (minuteOf_clock stop) now.minute
  have hdays : ',' ∉ (if days = [] then "*" else "&".intercalate ((days.insertionSort
      (fun a b => weekdayIndex a ≤ weekdayIndex b)).map Weekday.text)).toList := by
    split
    · decide
    · intro hmem
      rcases mem_intercalate hmem with hmem | ⟨text, htext, hmem⟩
      · exact absurd hmem (by decide)
      · obtain ⟨day, -, rfl⟩ := List.mem_map.mp htext
        exact (weekday_plain day).1 hmem
  have htext : (buildTimeSpec (.timeRange start stop days)).toList =
      (start.text.toList ++ '-' :: stop.text.toList) ++ ',' :: ((if days = [] then "*" else
        "&".intercalate ((days.insertionSort (fun a b => weekdayIndex a ≤ weekdayIndex b)).map
          Weekday.text)).toList ++ ",*,*".toList) := by
    simp [buildTimeSpec]
  rw [htext, windowOpen_spec htimes hdays, hrange, dayOpen_flow]

/-- The node's `GotoIfTime` takes the TRUE edge at that moment. -/
def takesTrue (layout : Layout) (node : FlowNode) (label : String) (onTrue : FlowEdge)
    (config : ConditionConfig) (now : Instant) : Bool :=
  ((conditionCode layout node config label onTrue).head?).any (·.opensAt now)

theorem takesTrue_eq (layout : Layout) (node : FlowNode) (label : String) (onTrue : FlowEdge)
    (config : ConditionConfig) (now : Instant) :
    takesTrue layout node label onTrue config now =
      windowOpen (buildTimeSpec config).toList now := by
  have hspec : '?' ∉ (buildTimeSpec config).toList :=
    ArsFlow.notMem_of_all (ArsFlow.all_isSpecChar_buildTimeSpec config) (by decide)
  have hopens : ∀ dest : String,
      (plainStep "GotoIfTime" (buildTimeSpec config ++ "?" ++ dest)).opensAt now =
        windowOpen (buildTimeSpec config).toList now := by
    intro dest
    have hargs : (buildTimeSpec config ++ "?" ++ dest).toList =
        (buildTimeSpec config).toList ++ '?' :: dest.toList := by simp
    rw [Step.opensAt, plainStep, hargs, cut_append hspec]
  unfold takesTrue conditionCode
  split <;> exact hopens _

/-! ## The windows of a forwarding rule -/

theorem opensAt_windowLine (rule : ForwardingRuleInput) {first last : String} {start stop : Nat}
    (hfirst : minuteOf first.toList = some start) (hlast : minuteOf last.toList = some stop)
    (hplain : ∀ c ∈ [',', '-', '?'], c ∉ first.toList ∧ c ∉ last.toList) (day : Weekday)
    (now : Instant) : (windowLine rule ⟨first ++ "-" ++ last, day.text⟩).opensAt now =
      (inWindow start stop now.minute && decide (weekdayOf now = day)) := by
  obtain ⟨hcomma, hjoin, hstar, hmark⟩ := weekday_plain day
  have htimes : ',' ∉ first.toList ++ '-' :: last.toList := by
    simp [(hplain ',' (by simp)).1, (hplain ',' (by simp)).2]
  have hspec : '?' ∉ (first.toList ++ '-' :: last.toList) ++ ',' ::
      (day.text.toList ++ ",*,*".toList) := by
    simp [(hplain '?' (by simp)).1, (hplain '?' (by simp)).2, hmark]
  have hargs : (windowLine rule ⟨first ++ "-" ++ last, day.text⟩).args =
      ((first.toList ++ '-' :: last.toList) ++ ',' :: (day.text.toList ++ ",*,*".toList)) ++
        '?' :: (forwardingContext rule ++ ",s,1").toList := by
    simp [windowLine, plainStep]
  rw [Step.opensAt, hargs, cut_append hspec, windowOpen_spec htimes hcomma,
    timeOpen_range (hplain '-' (by simp)).1 hfirst hlast, dayOpen_one hstar hjoin,
    dayName_weekdayOf, decide_text_eq]

/-- One of the lines of the schedule jumps to the rule at that moment. -/
def scheduleApplies (rule : ForwardingRuleInput) (schedule : ForwardingSchedule) (now : Instant) :
    Bool :=
  ((scheduleSlots schedule).map (windowLine rule)).any (·.opensAt now)

/-- A window on one day, or from that day to the next. -/
def dayApplies (start stop : Nat) (day : Weekday) (now : Instant) : Bool :=
  if start < stop then inWindow start stop now.minute && decide (weekdayOf now = day)
  else (decide (start ≤ now.minute) && decide (weekdayOf now = day)) ||
    (decide (now.minute ≤ stop) && decide (weekdayOf now = dayAfter day))

theorem applies_expandTimeWindow (rule : ForwardingRuleInput) (start stop : ClockTime)
    (day : Weekday) (now : Instant) :
    ((expandTimeWindow start.text stop.text day.text).map (windowLine rule)).any
      (·.opensAt now) = dayApplies (clockMinute start) (clockMinute stop) day now := by
  have hclock : ∀ (time : ClockTime), ∀ c ∈ [',', '-', '?'], c ∉ time.text.toList := by
    intro time c hc
    simp only [List.mem_cons, List.not_mem_nil, or_false] at hc
    rcases hc with rfl | rfl | rfl <;> exact notMem_clock time rfl (by decide)
  have hlast : (now.minute : Nat) ≤ 1439 := Nat.le_of_lt_succ now.minute.isLt
  have hstart := clockMinute_lt start
  unfold expandTimeWindow dayApplies
  simp only [clock_lt_iff]
  split
  · have hopen := opensAt_windowLine rule (minuteOf_clock start) (minuteOf_clock stop)
      (fun c hc => ⟨hclock start c hc, hclock stop c hc⟩) day now
    rw [List.map_singleton, List.any_cons, List.any_nil, Bool.or_false, hopen]
  · have hbefore : "-23:59" = "-" ++ "23:59" := rfl
    have hafter : "00:00-" = "00:00" ++ "-" := rfl
    have hfirst := opensAt_windowLine rule (minuteOf_clock start)
      (show minuteOf "23:59".toList = some 1439 from rfl)
      (fun c hc => ⟨hclock start c hc, by revert c; decide⟩) day now
    have hsecond := opensAt_windowLine rule (show minuteOf "00:00".toList = some 0 from rfl)
      (minuteOf_clock stop) (fun c hc => ⟨by revert c; decide, hclock stop c hc⟩)
      (dayAfter day) now
    rw [String.append_assoc] at hfirst
    simp only [List.map_cons, List.map_nil, List.any_cons, List.any_nil, Bool.or_false,
      nextWeekday_text, hbefore, hafter, hfirst, hsecond]
    simp [inWindow, hlast, Nat.le_of_lt_succ hstart]

theorem scheduleApplies_eq (rule : ForwardingRuleInput) (start stop : ClockTime)
    (days : List Weekday) (now : Instant) :
    scheduleApplies rule (.timeRange start.text stop.text (days.map Weekday.text)) now =
      days.any (fun day => dayApplies (clockMinute start) (clockMinute stop) day now) := by
  have hslots : scheduleSlots (.timeRange start.text stop.text (days.map Weekday.text)) =
      (days.map Weekday.text).flatMap (expandTimeWindow start.text stop.text) := rfl
  rw [scheduleApplies, hslots]
  induction days with
  | nil => rfl
  | cons day days ih =>
    rw [List.map_cons, List.flatMap_cons, List.map_append, List.any_append, ih rfl,
      applies_expandTimeWindow, List.any_cons]

/-! ## When the two agree -/

section Agreement
variable (start stop : Nat) (days : List Weekday)

/-- A window in minutes: the flow's reading beside that of the forwarding rule. -/
def Agree : Prop :=
  ∀ now : Instant, (inWindow start stop now.minute &&
    (decide (days = []) || decide (weekdayOf now ∈ days))) =
      days.any (fun day => dayApplies start stop day now)

theorem weekdayIndex_lt (day : Weekday) : weekdayIndex day < 7 := by
  cases day <;> decide

def onDay (day : Weekday) (minute : Fin 1440) : Instant :=
  ⟨⟨weekdayIndex day, weekdayIndex_lt day⟩, minute⟩

theorem weekdayOf_onDay (day : Weekday) (minute : Fin 1440) : weekdayOf (onDay day minute) = day := by
  cases day <;> rfl

theorem exists_dayAfter (day : Weekday) : ∃ before, dayAfter before = day := by
  cases day
  · exact ⟨.sun, rfl⟩
  · exact ⟨.mon, rfl⟩
  · exact ⟨.tue, rfl⟩
  · exact ⟨.wed, rfl⟩
  · exact ⟨.thu, rfl⟩
  · exact ⟨.fri, rfl⟩
  · exact ⟨.sat, rfl⟩

/-- The week comes round: a set of days with the day after each of its days has all. -/
theorem mem_of_closed {day : Weekday} (h : day ∈ days)
    (hclosed : ∀ d ∈ days, dayAfter d ∈ days) (other : Weekday) : other ∈ days := by
  have hone := hclosed _ h
  have htwo := hclosed _ hone
  have hthree := hclosed _ htwo
  have hfour := hclosed _ hthree
  have hfive := hclosed _ hfour
  have hsix := hclosed _ hfive
  cases day <;> cases other <;> assumption

variable {start stop days}

theorem agree_of_lt (h : start < stop) (hdays : days ≠ []) : Agree start stop days := by
  intro now
  have happlies : ∀ day, dayApplies start stop day now =
      (inWindow start stop now.minute && decide (weekdayOf now = day)) := by
    intro day
    rw [dayApplies, if_pos h]
  simp only [happlies, hdays, decide_false, Bool.false_or]
  cases inWindow start stop now.minute with
  | false => simp
  | true => simp [List.any_eq, eq_comm]

theorem agree_of_all (h : stop < start) (hdays : ∀ day, day ∈ days) : Agree start stop days := by
  intro now
  have hwindow : inWindow start stop now.minute =
      (decide (start ≤ now.minute) || decide (now.minute ≤ stop)) := by
    rw [inWindow, if_neg (Nat.not_le.mpr h)]
  rw [hwindow, Bool.eq_iff_iff]
  simp only [hdays, decide_true, Bool.or_true, Bool.and_true, Bool.or_eq_true, decide_eq_true_eq,
    List.any_eq_true, dayApplies, if_neg (Nat.not_lt.mpr h.le), Bool.and_eq_true, true_and]
  constructor
  · rintro (hstart | hstop)
    · exact ⟨weekdayOf now, .inl ⟨hstart, rfl⟩⟩
    · obtain ⟨before, hbefore⟩ := exists_dayAfter (weekdayOf now)
      exact ⟨before, .inr ⟨hstop, hbefore.symm⟩⟩
  · rintro ⟨day, ⟨hstart, -⟩ | ⟨hstop, -⟩⟩
    · exact .inl hstart
    · exact .inr hstop

/-- The flow's window on no day is its window on every day. -/
theorem Agree.ne_nil (h : Agree start stop days) (hstart : start < 1440) : days ≠ [] := by
  rintro rfl
  have hopen : inWindow start stop start = true := by
    unfold inWindow
    split <;> simp_all
  have hagree := h (onDay .mon ⟨start, hstart⟩)
  simp [onDay, hopen] at hagree

/-- Behind midnight the rule's window is on the next day. -/
theorem Agree.after_midnight (h : Agree start stop days) (hle : stop ≤ start) {day : Weekday}
    (hday : day ∈ days) : inWindow start stop 0 = true ∧ dayAfter day ∈ days := by
  have hagree := h (onDay (dayAfter day) 0)
  have hany : days.any (fun d => dayApplies start stop d (onDay (dayAfter day) 0)) = true := by
    refine List.any_eq_true.mpr ⟨day, hday, ?_⟩
    rw [dayApplies, if_neg (Nat.not_lt.mpr hle), weekdayOf_onDay]
    simp [onDay]
  have hnonempty : days ≠ [] := List.ne_nil_of_mem hday
  rw [hany, weekdayOf_onDay, Bool.and_eq_true, Bool.or_eq_true] at hagree
  refine ⟨hagree.1, ?_⟩
  rcases hagree.2 with hnil | hmem
  · exact absurd (of_decide_eq_true hnil) hnonempty
  · exact of_decide_eq_true hmem

theorem agree_iff (hstart : start < 1440) :
    Agree start stop days ↔
      (start < stop ∧ days ≠ []) ∨ (stop < start ∧ ∀ day, day ∈ days) := by
  constructor
  · intro h
    have hne := h.ne_nil hstart
    obtain ⟨day, rest, hcons⟩ := List.exists_cons_of_ne_nil hne
    have hday : day ∈ days := hcons ▸ List.mem_cons_self
    rcases Nat.lt_trichotomy start stop with hlt | heq | hgt
    · exact .inl ⟨hlt, hne⟩
    · -- a window of one minute in the flow, of a whole day in the rule
      subst heq
      have hzero := (h.after_midnight Nat.le.refl hday).1
      simp only [inWindow, Nat.le_refl, if_true, Nat.zero_le, decide_true, Bool.and_true,
        decide_eq_true_eq, Nat.le_zero] at hzero
      subst hzero
      have hagree := h (onDay day 1)
      have hany : days.any (fun d => dayApplies 0 0 d (onDay day 1)) = true := by
        refine List.any_eq_true.mpr ⟨day, hday, ?_⟩
        rw [dayApplies, if_neg (by decide), weekdayOf_onDay]
        simp
      rw [hany] at hagree
      have hclosed : inWindow 0 0 (onDay day 1).minute = false := by
        show inWindow 0 0 1 = false
        decide
      rw [hclosed] at hagree
      cases hagree
    · refine .inr ⟨hgt, ?_⟩
      exact mem_of_closed days hday (fun d hd => (h.after_midnight hgt.le hd).2)
  · rintro (⟨hlt, hne⟩ | ⟨hgt, hall⟩)
    · exact agree_of_lt hlt hne
    · exact agree_of_all hgt hall

end Agreement

/-- A window of a flow and one of a forwarding rule, with the same times and days, are open
at the same moments exactly when the window ends after it starts, on at least one day, or
ends before it starts and is there every day. -/
theorem flow_window_agrees_iff (layout : Layout) (node : FlowNode) (label : String)
    (onTrue : FlowEdge) (rule : ForwardingRuleInput) (start stop : ClockTime)
    (days : List Weekday) :
    (∀ now, takesTrue layout node label onTrue (.timeRange start stop days) now =
      scheduleApplies rule (.timeRange start.text stop.text (days.map Weekday.text)) now) ↔
      (clockMinute start < clockMinute stop ∧ days ≠ []) ∨
        (clockMinute stop < clockMinute start ∧ ∀ day, day ∈ days) := by
  rw [← agree_iff (clockMinute_lt start), Agree]
  refine forall_congr' ?_
  intro now
  rw [takesTrue_eq, windowOpen_buildTimeSpec, scheduleApplies_eq]

/-- From 22:00 on Mondays to 06:00: at 03:00 on a Tuesday the rule applies and the flow's
condition is false. -/
theorem night_window_ends_at_midnight_in_a_flow :
    ∃ (layout : Layout) (node : FlowNode) (onTrue : FlowEdge) (rule : ForwardingRuleInput)
      (start stop : ClockTime) (now : Instant),
      start.text = "22:00" ∧ stop.text = "06:00" ∧ now = onDay .tue 180 ∧
        takesTrue layout node "node" onTrue (.timeRange start stop [.mon]) now = false ∧
        scheduleApplies rule (.timeRange start.text stop.text ([Weekday.mon].map Weekday.text))
          now = true := by
  refine ⟨ArsFlow.layoutOf (fun _ _ => 0) ⟨"f", "flow", "n", [], []⟩, ⟨"n", "node", .hangup none⟩,
    ⟨"e", "n", "m", .true, none⟩,
    ⟨"r", "d", "QUEUE", "q", none, none, none, "TIME_RANGE", none, none, none, none, true⟩,
    ⟨"22:00", rfl⟩, ⟨"06:00", rfl⟩, onDay .tue 180, rfl, rfl, rfl, ?_, ?_⟩
  · rw [takesTrue_eq, windowOpen_buildTimeSpec]
    rfl
  · rw [scheduleApplies_eq]
    rfl

end KasterCti.Renderers
