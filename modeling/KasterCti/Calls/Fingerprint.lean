import KasterCti.Ami.Parser
import KasterCti.Calls.SessionEngine
import Mathlib

/-!
# What a fingerprint tells apart

The fingerprint joins the node, the event's name, its ids, the channel and the
destination channel with bars, and the second. An event from the normalizer has
neither channel set, and the second is that of its arrival.

Results:
1. `fingerprints_differ_iff`: the fingerprints of two frames differ if and only if
   the seconds or the joined headers do. Channel, DestChannel and Interface are not
   among them.
2. `dial_begins_merged`: two agents' phones that ring in one second are one event.
-/

namespace KasterCti.Calls

open JsText Ami

/-- The headers of a frame that enter the fingerprint, in its order. The two
channels stay empty. -/
def fingerprintFields (raw : List Char) : List String :=
  let payload := normalizedPayload raw
  let text := fun name => (header payload name).getD ""
  [text "Event", (orElse (orElse (header payload "Linkedid") (header payload "LinkedId"))
      (header payload "Uniqueid")).getD "", text "Uniqueid", "", ""] ++
    (if text "Event" = "UserEvent" then
      ["UserEvent", "Stage", "Digit", "Action", "Target", "Result"].map text
    else [])

/-- What stands between the bars when texts are joined with bars. -/
def pieces (fields : List String) : List (List Char) :=
  fields.flatMap (fun field => field.toList.splitOn '|')

def secondOf (now : Time) : Int := now / 1000

/-! ## Joining with bars -/

theorem splitOn_join {fields : List String} (h : fields ≠ []) :
    ("|".intercalate fields).toList.splitOn '|' = pieces fields := by
  induction fields with
  | nil => exact absurd rfl h
  | cons field rest ih =>
    cases rest with
    | nil => simp [pieces]
    | cons next rest =>
      have htext : ("|".intercalate (field :: next :: rest)).toList =
          field.toList ++ '|' :: ("|".intercalate (next :: rest)).toList := by
        simp [String.intercalate_cons_cons]
      rw [htext, List.splitOn_append_cons_self, ih (by simp)]
      simp [pieces]

/-- Two joined texts are equal when their pieces are. -/
theorem join_eq_iff {fields₁ fields₂ : List String} (h₁ : fields₁ ≠ []) (h₂ : fields₂ ≠ []) :
    "|".intercalate fields₁ = "|".intercalate fields₂ ↔ pieces fields₁ = pieces fields₂ := by
  rw [← splitOn_join h₁, ← splitOn_join h₂]
  constructor
  · intro heq
    rw [heq]
  · intro heq
    have hjoined := congrArg (fun ls => ['|'].intercalate ls) heq
    simp only [List.intercalate_splitOn] at hjoined
    exact String.toList_inj.mp hjoined

theorem pieces_append (fields₁ fields₂ : List String) :
    pieces (fields₁ ++ fields₂) = pieces fields₁ ++ pieces fields₂ := List.flatMap_append

/-- Without a bar in a field the pieces are the fields. -/
theorem pieces_of_no_bar {fields : List String} (h : ∀ field ∈ fields, '|' ∉ field.toList) :
    pieces fields = fields.map String.toList := by
  induction fields with
  | nil => rfl
  | cons field rest ih =>
    have hfield := List.splitOn_eq_singleton (h field List.mem_cons_self)
    rw [List.map_cons, ← ih (fun other hother => h other (List.mem_cons_of_mem _ hother))]
    simp [pieces, hfield]

/-! ## The second -/

theorem not_mem_natRepr {c : Char} (hc : c.isDigit = false) (n : Nat) : c ∉ n.repr.toList := by
  intro hmem
  rw [Nat.toList_repr] at hmem
  have hdigit := Nat.isDigit_of_mem_toDigits (by decide) (by decide) hmem
  rw [hc] at hdigit
  cases hdigit

theorem not_bar_intText (i : Int) : '|' ∉ (toString i).toList := by
  cases i with
  | ofNat n => exact not_mem_natRepr rfl n
  | negSucc n =>
    have htext : (toString (Int.negSucc n)).toList = '-' :: (n + 1).repr.toList := by
      simp [toString, Int.repr]
    rw [htext, List.mem_cons, not_or]
    exact ⟨by decide, not_mem_natRepr rfl _⟩

/-! ## Two frames -/

theorem eventNameOf_eq_userEvent (name : String) :
    eventNameOf name = .userEvent ↔ name = "UserEvent" := by
  constructor
  · intro h
    rw [← eventNameOf_text name, h]
    rfl
  · rintro rfl
    rfl

/-- The node's part of the fingerprint. -/
def nodeText (env : Env) : String := (orElse env.asteriskNodeId (some "default")).getD ""

theorem fingerprintText_normalize {env : Env} {raw : List Char} {now at_ : Time} {event : AmiEvent}
    (h : Ami.normalize raw now = some event) :
    fingerprintText env event at_ =
      "|".intercalate ([nodeText env] ++ fingerprintFields raw ++ [toString (secondOf now)]) := by
  unfold Ami.normalize at h
  dsimp only at h
  split at h
  · cases h
  · obtain rfl := Option.some.inj h
    have hnode : orElse none (orElse env.asteriskNodeId (some "default")) =
        orElse env.asteriskNodeId (some "default") := rfl
    simp only [fingerprintText, hnode, nodeText, eventNameOf_text, eventNameOf_eq_userEvent,
      fingerprintFields]
    rfl

theorem fingerprints_eq_iff {env : Env} (hsha : Function.Injective env.sha256)
    {raw₁ raw₂ : List Char} {now₁ now₂ at₁ at₂ : Time} {event₁ event₂ : AmiEvent}
    (h₁ : Ami.normalize raw₁ now₁ = some event₁) (h₂ : Ami.normalize raw₂ now₂ = some event₂) :
    computeFingerprint env event₁ at₁ = computeFingerprint env event₂ at₂ ↔
      secondOf now₁ = secondOf now₂ ∧
        pieces (fingerprintFields raw₁) = pieces (fingerprintFields raw₂) := by
  have hbar : ∀ now : Time, pieces [toString (secondOf now)] = [(toString (secondOf now)).toList] :=
    fun now => pieces_of_no_bar (by simpa using not_bar_intText _)
  rw [computeFingerprint, computeFingerprint, hsha.eq_iff, fingerprintText_normalize h₁,
    fingerprintText_normalize h₂, join_eq_iff (by simp) (by simp), pieces_append, pieces_append,
    pieces_append, pieces_append, hbar, hbar, List.append_assoc, List.append_assoc,
    List.append_cancel_left_eq]
  constructor
  · intro heq
    obtain ⟨hpieces, hlast⟩ := List.append_inj' heq rfl
    exact ⟨Int.repr_injective (String.toList_inj.mp (List.cons.inj hlast).1), hpieces⟩
  · rintro ⟨hsecond, hpieces⟩
    rw [hsecond, hpieces]

/-- The fingerprints of two frames differ if and only if the frames arrived in
different seconds or the headers that enter the fingerprint, joined with bars, differ.
The digest is assumed injective. -/
theorem fingerprints_differ_iff {env : Env} (hsha : Function.Injective env.sha256)
    {raw₁ raw₂ : List Char} {now₁ now₂ at₁ at₂ : Time} {event₁ event₂ : AmiEvent}
    (h₁ : Ami.normalize raw₁ now₁ = some event₁) (h₂ : Ami.normalize raw₂ now₂ = some event₂) :
    computeFingerprint env event₁ at₁ ≠ computeFingerprint env event₂ at₂ ↔
      secondOf now₁ ≠ secondOf now₂ ∨
        pieces (fingerprintFields raw₁) ≠ pieces (fingerprintFields raw₂) := by
  rw [ne_eq, fingerprints_eq_iff hsha h₁ h₂, not_and_or]

set_option maxRecDepth 2000

/-- The phone of one agent begins to ring. -/
def exDialBegin (agent : String) : List Char :=
  ("Event: DialBegin\r\nChannel: PJSIP/trunk-1\r\nUniqueid: 17.1\r\nLinkedid: 17.1\r\n" ++
    "DestChannel: PJSIP/" ++ agent ++ "-2").toList

theorem fingerprints_differ_later :
    ∃ event₁ event₂, Ami.normalize (exDialBegin "1001") 1000 = some event₁ ∧
      Ami.normalize (exDialBegin "1002") 2000 = some event₂ ∧
      computeFingerprint exEnv event₁ 1000 ≠ computeFingerprint exEnv event₂ 2000 := by
  obtain ⟨event₁, h₁⟩ : ∃ event, Ami.normalize (exDialBegin "1001") 1000 = some event :=
    Option.isSome_iff_exists.mp (by decide)
  obtain ⟨event₂, h₂⟩ : ∃ event, Ami.normalize (exDialBegin "1002") 2000 = some event :=
    Option.isSome_iff_exists.mp (by decide)
  exact ⟨event₁, event₂, h₁, h₂,
    (fingerprints_differ_iff Function.injective_id h₁ h₂).mpr (.inl (by decide))⟩

/-- The outcomes of frames that arrive one after the other. -/
def outcomesOf (env : Env) : World → List (List Char × Time) → List Outcome
  | _, [] => []
  | w, (raw, now) :: rest =>
    match Ami.normalize raw now with
    | none => outcomesOf env w rest
    | some event =>
      (processNormalizedEvent env w { event, now }).1 ::
        outcomesOf env (processNormalizedEvent env w { event, now }).2 rest

/-- A channel is put on hold, taken back and put on hold again. -/
def exHold (event : String) : List Char :=
  ("Event: " ++ event ++ "\r\nChannel: PJSIP/1001-2\r\nUniqueid: 17.2\r\nLinkedid: 17.1").toList

/-- Two phones that begin to ring in one second have one fingerprint, and so do two
holds in one second: the second event is dropped as a duplicate of the first. -/
theorem dial_begins_merged :
    header (normalizedPayload (exDialBegin "1001")) "DestChannel" ≠
        header (normalizedPayload (exDialBegin "1002")) "DestChannel" ∧
      (Ami.normalize (exDialBegin "1001") 1000).map (computeFingerprint exEnv · 1000) =
        (Ami.normalize (exDialBegin "1002") 1400).map (computeFingerprint exEnv · 1400) ∧
      outcomesOf exEnv World.empty [(exDialBegin "1001", 1000), (exDialBegin "1002", 1400)] =
        [.applied, .skipped] ∧
      outcomesOf exEnv World.empty
          [(exHold "Hold", 1000), (exHold "Unhold", 1300), (exHold "Hold", 1600)] =
        [.applied, .applied, .skipped] := by
  decide

end KasterCti.Calls
