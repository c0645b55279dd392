import KasterCti.Library.JsText
import KasterCti.Library.Lines
import Mathlib.Data.List.Forall2

/-!
# Text helpers of the dialplan renderers

`renderer-utils.ts` and `hook-paths.ts`. A renderer throws by returning an
error text.
-/

namespace KasterCti.Renderers

open Lines

abbrev Render := Except String

def customSoundAbsolutePrefix : String := "/var/lib/asterisk/sounds/custom/"
def optOutHookPath : String := customSoundAbsolutePrefix ++ "kaster-opt-out-hook.sh"
def smartArsHookPath : String := customSoundAbsolutePrefix ++ "kaster-smart-ars-hook.sh"
def arsHttpLookupAgiPath : String := customSoundAbsolutePrefix ++ "kaster-ars-http-lookup.agi"

/-- `[a-z0-9]`. -/
def isSlugChar (c : Char) : Bool := JsText.isDigit c || ('a' ≤ c && c ≤ 'z')

/-- `.replace(/[^a-z0-9]+/g, '-')`; `inRun` says that the run being read has its
dash already. -/
def dashRuns (inRun : Bool) : List Char → List Char
  | [] => []
  | c :: cs =>
    if isSlugChar c then c :: dashRuns false cs
    else if inRun then dashRuns true cs
    else '-' :: dashRuns true cs

def dropDash : List Char → List Char
  | '-' :: cs => cs
  | cs => cs

def toSlug (name : String) : String :=
  let dashed := dashRuns false (JsText.toLowerCase name).toList
  String.ofList (dropDash (dropDash dashed).reverse).reverse

def assertNoNewlines (value field : String) : Render Unit :=
  if hasBreak value then
    throw ("Field \"" ++ field ++ "\" contains illegal newline characters")
  else pure ()

def quoteChar (c : Char) : List Char := if c = '\'' then "'\"'\"'".toList else [c]

def shellQuote (value : String) : String :=
  "'" ++ String.ofList (value.toList.flatMap quoteChar) ++ "'"

def toPlaybackTarget (promptKey : String) : Render String := do
  assertNoNewlines promptKey "promptKey"
  match JsText.afterPrefix? "custom/".toList promptKey.toList with
  | some relativePath =>
    assertNoNewlines (String.ofList relativePath) "promptKey"
    pure (customSoundAbsolutePrefix ++ String.ofList relativePath)
  | none => pure promptKey

/-! ## What the helpers let through -/

variable {α β : Type}

/-- A computation in sequence succeeds when both parts do. -/
theorem bind_eq_ok {x : Render α} {f : α → Render β} {b : β} :
    (x >>= f) = .ok b ↔ ∃ a, x = .ok a ∧ f a = .ok b := by
  cases x with
  | error e => simp [bind, Except.bind]
  | ok a => simp [bind, Except.bind]

theorem map_eq_ok {x : Render α} {f : α → β} {b : β} :
    (f <$> x) = .ok b ↔ ∃ a, x = .ok a ∧ f a = b := by
  cases x with
  | error e => simp [Functor.map, Except.map]
  | ok a => simp [Functor.map, Except.map]

theorem pure_eq_ok {α : Type} {a b : α} : (pure a : Render α) = .ok b ↔ a = b := by
  simp [pure, Except.pure]

/-- A list of computations succeeds when each of them does. -/
theorem mapM_eq_ok {f : α → Render β} {xs : List α} {ys : List β} :
    xs.mapM f = .ok ys ↔ List.Forall₂ (fun x y => f x = .ok y) xs ys := by
  induction xs generalizing ys with
  | nil =>
    rw [List.mapM_nil, pure_eq_ok]
    constructor
    · rintro rfl
      exact .nil
    · rintro ⟨⟩
      rfl
  | cons x xs ih =>
    rw [List.mapM_cons, bind_eq_ok]
    constructor
    · rintro ⟨y, hy, h⟩
      obtain ⟨zs, hzs, h⟩ := bind_eq_ok.mp h
      rw [← pure_eq_ok.mp h]
      exact .cons hy (ih.mp hzs)
    · rintro (_ | ⟨hy, hys⟩)
      exact ⟨_, hy, bind_eq_ok.mpr ⟨_, ih.mpr hys, rfl⟩⟩

theorem exists_of_mem_right {r : α → β → Prop} {xs : List α} {ys : List β}
    (h : List.Forall₂ r xs ys) {y : β} (hy : y ∈ ys) : ∃ x ∈ xs, r x y := by
  induction h with
  | nil => cases hy
  | cons hr _ ih =>
    rcases List.mem_cons.mp hy with rfl | hy
    · exact ⟨_, by simp, hr⟩
    · obtain ⟨x, hx, hr⟩ := ih hy
      exact ⟨x, List.mem_cons_of_mem _ hx, hr⟩

theorem exists_of_mem_left {r : α → β → Prop} {xs : List α} {ys : List β} (h : List.Forall₂ r xs ys)
    {x : α} (hx : x ∈ xs) : ∃ y ∈ ys, r x y := by
  exact exists_of_mem_right (r := fun y x => r x y) (List.Forall₂.flip h) hx

theorem assertNoNewlines_eq_ok {value field : String} {u : Unit} :
    assertNoNewlines value field = .ok u ↔ hasBreak value = false := by
  cases h : hasBreak value with
  | true => simp [assertNoNewlines, h, throw, throwThe, MonadExceptOf.throw]
  | false => simp [assertNoNewlines, h, pure, Except.pure]

theorem isSlugChar_or_dash_of_mem_dashRuns {cs : List Char} {inRun : Bool} {c : Char}
    (h : c ∈ dashRuns inRun cs) : isSlugChar c = true ∨ c = '-' := by
  induction cs generalizing inRun with
  | nil => simp [dashRuns] at h
  | cons d ds ih =>
    rw [dashRuns] at h
    split at h
    · rename_i hd
      rcases List.mem_cons.mp h with rfl | h
      · exact .inl hd
      · exact ih h
    · split at h
      · exact ih h
      · rcases List.mem_cons.mp h with rfl | h
        · exact .inr rfl
        · exact ih h

theorem dropDash_sublist (cs : List Char) : (dropDash cs).Sublist cs := by
  unfold dropDash
  split
  · exact List.sublist_cons_self _ _
  · exact List.Sublist.refl _

/-- A slug is made of small letters, digits and dashes. -/
theorem isSlugChar_or_dash_of_mem_toSlug {name : String} {c : Char}
    (h : c ∈ (toSlug name).toList) : isSlugChar c = true ∨ c = '-' := by
  rw [toSlug, String.toList_ofList, List.mem_reverse] at h
  have h := (dropDash_sublist _).subset h
  rw [List.mem_reverse] at h
  exact isSlugChar_or_dash_of_mem_dashRuns ((dropDash_sublist _).subset h)

theorem isBreak_of_slugChar {c : Char} (h : isSlugChar c = true ∨ c = '-') :
    isBreak c = false := by
  by_contra hb
  rcases isBreak_iff.mp (Bool.not_eq_false _ ▸ hb) with rfl | rfl <;>
    simp [isSlugChar, JsText.isDigit] at h

theorem hasBreak_toSlug (name : String) : hasBreak (toSlug name) = false := by
  rw [hasBreak, List.any_eq_false]
  intro c hc
  simp [isBreak_of_slugChar (isSlugChar_or_dash_of_mem_toSlug hc)]

theorem isBreak_of_isDigit {c : Char} (h : c.isDigit = true) : isBreak c = false := by
  by_contra hb
  rcases isBreak_iff.mp (Bool.not_eq_false _ ▸ hb) with rfl | rfl <;> exact absurd h (by decide)

@[simp] theorem hasBreak_repr (n : Nat) : hasBreak n.repr = false := by
  rw [hasBreak, List.any_eq_false]
  intro c hc
  rw [Nat.toList_repr] at hc
  simp [isBreak_of_isDigit (Nat.isDigit_of_mem_toDigits (by decide) (by decide) hc)]

/-- What a quoted list of arguments is made of. -/
theorem mem_quotedWords {args : List String} {c : Char}
    (h : c ∈ (" ".intercalate (args.map shellQuote)).toList) :
    c ∈ " '\"".toList ∨ ∃ arg ∈ args, c ∈ arg.toList := by
  have hspace : " ".toList ⊆ " '\"".toList := by decide
  have hquote : "'\"'\"'".toList ⊆ " '\"".toList := by decide
  have hends : "'".toList ⊆ " '\"".toList := by decide
  rcases mem_intercalate h with h | ⟨l, hl, h⟩
  · exact .inl (hspace h)
  · obtain ⟨arg, harg, rfl⟩ := List.mem_map.mp hl
    rw [shellQuote, String.toList_append, String.toList_append, List.mem_append,
      List.mem_append] at h
    rcases h with (h | h) | h
    · exact .inl (hends h)
    · rw [String.toList_ofList] at h
      obtain ⟨d, hd, h⟩ := List.mem_flatMap.mp h
      unfold quoteChar at h
      by_cases hmark : d = '\''
      · rw [if_pos hmark] at h
        exact .inl (hquote h)
      · rw [if_neg hmark] at h
        obtain rfl := List.mem_singleton.mp h
        exact .inr ⟨arg, harg, hd⟩
    · exact .inl (hends h)

/-- The playback target is the prompt key, its `custom/` replaced by the sound
directory, and the key has no line break. -/
theorem toPlaybackTarget_eq_ok {promptKey target : String}
    (h : toPlaybackTarget promptKey = .ok target) :
    hasBreak promptKey = false ∧ hasBreak target = false := by
  obtain ⟨_, hkey, h⟩ := bind_eq_ok.mp h
  have hkey := assertNoNewlines_eq_ok.mp hkey
  refine ⟨hkey, ?_⟩
  split at h
  · obtain ⟨_, hrel, h⟩ := bind_eq_ok.mp h
    have hrel := assertNoNewlines_eq_ok.mp hrel
    rw [← pure_eq_ok.mp h, hasBreak_append, hrel]
    rfl
  · rw [← pure_eq_ok.mp h]
    exact hkey

end KasterCti.Renderers
