import KasterCti.Library.DialplanCode

/-!
# When a time window is open

`GotoIfTime(times,weekdays,mdays,months?…)`: a window of the day, and the days of the
week joined by `&`. Both ends of the window belong to it; a window that starts after its
end is open at both ends of the same calendar day. The days of the month and the months
of generated files are always `*`.
-/

namespace Dialplan

/-- A minute of a week: the day, counted from Monday, and the minute of that day. -/
structure Instant where
  day : Fin 7
  minute : Fin 1440

def dayNames : List String := ["mon", "tue", "wed", "thu", "fri", "sat", "sun"]

def Instant.dayName (now : Instant) : Text := (dayNames.getD now.day "").toList

/-- `HH:MM`. -/
def minuteOf (t : Text) : Option Nat :=
  match t with
  | [a, b, ':', c, d] => some (natOf [a, b] * 60 + natOf [c, d])
  | _ => none

def inWindow (start stop minute : Nat) : Bool :=
  if start ≤ stop then start ≤ minute && minute ≤ stop else start ≤ minute || minute ≤ stop

def timeOpen (times : Text) (minute : Nat) : Bool :=
  if times = ['*'] then true
  else
    match cut '-' times with
    | (first, some last) =>
      match minuteOf first, minuteOf last with
      | some start, some stop => inWindow start stop minute
      | _, _ => false
    | (_, none) => false

def dayOpen (days name : Text) : Bool :=
  if days = ['*'] then true else name ∈ days.splitOnP (· == '&')

def windowOpen (spec : Text) (now : Instant) : Bool :=
  match spec.splitOnP (· == ',') with
  | [times, days, ['*'], ['*']] => timeOpen times now.minute && dayOpen days now.dayName
  | _ => false

/-- Whether a `GotoIfTime` jumps at that moment. -/
def Step.opensAt (code : Step) (now : Instant) : Bool := windowOpen (cut '?' code.args).1 now

/-! ## Windows as they are written -/

theorem windowOpen_spec {times days : Text} (htimes : ',' ∉ times) (hdays : ',' ∉ days)
    (now : Instant) :
    windowOpen (times ++ ',' :: (days ++ ",*,*".toList)) now =
      (timeOpen times now.minute && dayOpen days now.dayName) := by
  have hrest : (days ++ ",*,*".toList).splitOnP (· == ',') = [days, ['*'], ['*']] :=
    splitComma_cons hdays "*,*".toList
  rw [windowOpen, splitComma_cons htimes, hrest]
  rfl

theorem timeOpen_range {first last : Text} {start stop : Nat} (hdash : '-' ∉ first)
    (hfirst : minuteOf first = some start) (hlast : minuteOf last = some stop) (minute : Nat) :
    timeOpen (first ++ '-' :: last) minute = inWindow start stop minute := by
  have hne : first ++ '-' :: last ≠ ['*'] := by
    intro heq
    have hmem : '-' ∈ (['*'] : Text) := heq ▸ by simp
    exact absurd hmem (by decide)
  rw [timeOpen, if_neg hne, cut_append hdash]
  simp only [hfirst, hlast]

/-- Days joined by `&`. -/
theorem dayOpen_joined {days : List String} (hne : days ≠ []) (hstar : days ≠ ["*"])
    (hjoin : ∀ day ∈ days, '&' ∉ day.toList) (name : Text) :
    dayOpen ("&".intercalate days).toList name = decide (name ∈ days.map String.toList) := by
  have htexts : ("&".intercalate days).toList = ['&'].intercalate (days.map String.toList) :=
    String.toList_intercalate
  have hsplit : (['&'].intercalate (days.map String.toList)).splitOnP (· == '&') =
      days.map String.toList := by
    refine List.splitOn_intercalate '&' ?_ (by simpa using hne)
    intro day hday
    obtain ⟨text, htext, rfl⟩ := List.mem_map.mp hday
    exact hjoin text htext
  have hnot : ['&'].intercalate (days.map String.toList) ≠ ['*'] := by
    intro heq
    rw [heq] at hsplit
    have hone : days.map String.toList = [['*']] := hsplit.symm
    obtain ⟨day, rfl, hday⟩ := List.map_eq_singleton_iff.mp hone
    have hstarred : day = "*" := String.toList_inj.mp hday
    exact hstar (by rw [hstarred])
  rw [dayOpen, htexts, if_neg hnot, hsplit]

theorem dayOpen_one {day : String} (hstar : day ≠ "*") (hjoin : '&' ∉ day.toList) (name : Text) :
    dayOpen day.toList name = decide (name = day.toList) := by
  have hjoined : "&".intercalate [day] = day := String.intercalate_singleton
  have hopen := dayOpen_joined (show [day] ≠ [] by simp) (by simpa using hstar)
    (by simpa using hjoin) name
  rw [hjoined] at hopen
  simpa using hopen

end Dialplan
