import KasterCti.Renderers.QueueContexts

/-!
# The conditions of the dialplan

What the two conditions that the renderers write most come to when a call runs them:
`$["${name}"="value"]` in front of a jump, and `$["${LEN(${name})}"="0"]` in front of a
value for the variable.
-/

namespace KasterCti.Renderers

open Dialplan
open ArsFlow (plainStep varRef)

/-- Characters that mean something where a text is expanded. -/
def isPlainChar (c : Char) : Bool := c ≠ '$' && c ≠ '\x7d' && c ≠ ']'

theorem plain_of_all {t : Text} (h : t.all isPlainChar = true) :
    ∀ c ∈ t, c ≠ '$' ∧ c ≠ '\x7d' ∧ c ≠ ']' := by
  intro c hc
  have hplain := List.all_eq_true.mp h c hc
  simpa [isPlainChar, and_assoc] using hplain

/-! ## The clock of the channel -/

/-- `STRFTIME(epoch,,format)`. -/
def strftime (epoch format : Text) : Text :=
  "STRFTIME(".toList ++ epoch ++ ",,".toList ++ format ++ [')']

theorem strftime_eq (epoch format : Text) :
    strftime epoch format = "STRFTIME(".toList ++ epoch ++ ",,".toList ++ format ++ [')'] := rfl

theorem valueOf_strftime (lookup : Text → Text) (epoch format : Text) :
    valueOf lookup (strftime epoch format) = lookup (strftime epoch format) := by
  have hcall : strftime epoch format =
      "STRFTIME".toList ++ '(' :: (epoch ++ ",,".toList ++ format ++ [')']) := by
    simp [strftime_eq]
  rw [hcall]
  exact valueOf_call lookup (by decide) (by decide) (by decide)

/-! ## Expansion -/

section Expand
variable (lookup : Text → Text)

theorem expandFrom_after (v rest : Text) :
    expandFrom lookup v [] rest = v ++ expand lookup rest := by
  have hout := expandFrom_out lookup v [] [] rest
  rwa [List.append_nil] at hout

section Refs
variable {name : String} (hname : name.toList.all isPlainChar = true) (out : Text)
  (frames : List Frame) (rest : Text)
include hname

theorem expandFrom_ref :
    expandFrom lookup out frames ('$' :: '\x7b' :: (name.toList ++ '\x7d' :: rest)) =
      expandFrom lookup (put out frames (valueOf lookup name.toList)).1
        (put out frames (valueOf lookup name.toList)).2 rest := by
  rw [expandFrom_openVar, expandFrom_frame lookup (plain_of_all hname), expandFrom_closeVar,
    List.nil_append]

/-- A function of the channel, with a variable among its arguments. -/
theorem expandFrom_call {before after value : Text}
    (hbefore : ∀ c ∈ before, c ≠ '$' ∧ c ≠ '\x7d' ∧ c ≠ ']')
    (hafter : ∀ c ∈ after, c ≠ '$' ∧ c ≠ '\x7d' ∧ c ≠ ']')
    (hvalue : valueOf lookup (before ++ valueOf lookup name.toList ++ after) = value) :
    expandFrom lookup out frames ('$' :: '\x7b' :: (before ++ '$' :: '\x7b' :: (name.toList ++
      '\x7d' :: (after ++ '\x7d' :: rest)))) =
        expandFrom lookup (put out frames value).1 (put out frames value).2 rest := by
  rw [expandFrom_openVar, expandFrom_frame lookup hbefore, expandFrom_ref lookup hname]
  simp only [put, List.nil_append]
  rw [expandFrom_frame lookup hafter, expandFrom_closeVar, hvalue]
  rfl

end Refs

/-- The text behind the variable of a condition. -/
theorem plain_equals {value : Text} (h : ∀ c ∈ value, c ≠ '$' ∧ c ≠ '\x7d' ∧ c ≠ ']') :
    ∀ c ∈ "\"=\"".toList ++ value ++ ['"'], c ≠ '$' ∧ c ≠ '\x7d' ∧ c ≠ ']' :=
  List.forall_mem_append.mpr ⟨List.forall_mem_append.mpr ⟨by decide, h⟩, by decide⟩

/-- A condition in front of a rest. -/
theorem expand_isValue {name value : String} (hname : name.toList.all isPlainChar = true)
    (hvalue : value.toList.all isPlainChar = true) (hquote : '"' ∉ value.toList)
    (hshown : '"' ∉ valueOf lookup name.toList) (rest : Text) :
    expand lookup ((isValue name value).toList ++ rest) =
      truth (valueOf lookup name.toList = value.toList) ++ expand lookup rest := by
  have htext : (isValue name value).toList ++ rest =
      '$' :: '[' :: (['"'] ++ '$' :: '\x7b' :: (name.toList ++
        '\x7d' :: (("\"=\"".toList ++ value.toList ++ ['"']) ++ ']' :: rest))) := by
    simp [isValue, varRef]
  rw [htext, expand, expandFrom_openExpr, expandFrom_frame lookup (by decide),
    expandFrom_ref lookup hname]
  simp only [put, List.nil_append]
  rw [expandFrom_frame lookup (plain_equals (plain_of_all hvalue)), expandFrom_closeExpr]
  simp only [put, List.nil_append]
  have hexpr : ['"'] ++ valueOf lookup name.toList ++ ("\"=\"".toList ++ value.toList ++ ['"']) =
      quoted (valueOf lookup name.toList) ++ ['='] ++ quoted value.toList := by
    simp [quoted]
  rw [hexpr, evalExpr_isValue hshown hquote, expandFrom_after]

variable {name : String}

/-- The value of a variable in front of a rest. -/
theorem expand_varRef (hname : name.toList.all isPlainChar = true) (rest : Text) :
    expand lookup ((varRef name).toList ++ rest) =
      valueOf lookup name.toList ++ expand lookup rest := by
  have htext : (varRef name).toList ++ rest = '$' :: '\x7b' :: (name.toList ++ '\x7d' :: rest) := by
    simp [varRef]
  rw [htext, expand, expandFrom_ref lookup hname]
  exact expandFrom_after lookup _ rest

/-- The date in a format. -/
theorem expandFrom_strftime {format : Text} (hformat : ∀ c ∈ format, c ≠ '$' ∧ c ≠ '\x7d' ∧ c ≠ ']')
    (out : Text) (frames : List Frame) (rest : Text) :
    expandFrom lookup out frames ('$' :: '\x7b' :: ("STRFTIME(".toList ++ '$' :: '\x7b' ::
      ("EPOCH".toList ++ '\x7d' :: ((",,".toList ++ format ++ [')']) ++ '\x7d' :: rest)))) =
        expandFrom lookup (put out frames (lookup (strftime (lookup "EPOCH".toList) format))).1
          (put out frames (lookup (strftime (lookup "EPOCH".toList) format))).2 rest := by
  refine expandFrom_call lookup (by decide) out frames rest (by decide)
    (List.forall_mem_append.mpr ⟨List.forall_mem_append.mpr ⟨by decide, hformat⟩, by decide⟩) ?_
  rw [valueOf_plain lookup (show '(' ∉ "EPOCH".toList by decide), ← valueOf_strftime lookup, strftime_eq]
  simp only [List.append_assoc]

/-- The date in a format, in front of a rest. -/
theorem expand_strftime {format : String} (hformat : format.toList.all isPlainChar = true)
    (rest : Text) :
    expand lookup ((varRef ("STRFTIME(" ++ varRef "EPOCH" ++ ",," ++ format ++ ")")).toList ++ rest) =
      lookup (strftime (lookup "EPOCH".toList) format.toList) ++ expand lookup rest := by
  have htext : (varRef ("STRFTIME(" ++ varRef "EPOCH" ++ ",," ++ format ++ ")")).toList ++ rest =
      '$' :: '\x7b' :: ("STRFTIME(".toList ++ '$' :: '\x7b' :: ("EPOCH".toList ++
        '\x7d' :: ((",,".toList ++ format.toList ++ [')']) ++ '\x7d' :: rest))) := by
    simp [varRef]
  rw [htext, expand, expandFrom_strftime lookup (plain_of_all hformat)]
  exact expandFrom_after lookup _ rest

theorem valueOf_len (v : Text) : valueOf lookup ("LEN(".toList ++ v ++ [')']) = natText v.length := by
  have hcut : cut '(' ("LEN(".toList ++ v ++ [')']) = ("LEN".toList, some (v ++ [')'])) := by
    simpa using cut_append (show '(' ∉ "LEN".toList by decide) (v ++ [')'])
  rw [valueOf, hcut]
  simp only [upToLast_append, if_true]

/-- The length of a variable against zero, in front of a rest. -/
theorem expand_isEmptyVar (hname : name.toList.all isPlainChar = true)
    (hopen : '(' ∉ name.toList) (rest : Text) :
    expand lookup ((isEmptyVar name).toList ++ rest) =
      truth (lookup name.toList = []) ++ expand lookup rest := by
  have htext : (isEmptyVar name).toList ++ rest =
      '$' :: '[' :: (['"'] ++ '$' :: '\x7b' :: ("LEN(".toList ++ '$' :: '\x7b' :: (name.toList ++
        '\x7d' :: ([')'] ++ '\x7d' :: ("\"=\"0\"".toList ++ ']' :: rest))))) := by
    simp [isEmptyVar, lenRef, varRef]
  rw [htext, expand, expandFrom_openExpr, expandFrom_frame lookup (by decide),
    expandFrom_call lookup hname _ _ _ (by decide) (by decide) (valueOf_len lookup _),
    valueOf_plain lookup hopen]
  simp only [put]
  rw [expandFrom_frame lookup (by decide), expandFrom_closeExpr]
  simp only [put, List.nil_append]
  have hexpr : ['"'] ++ natText (lookup name.toList).length ++ "\"=\"0\"".toList =
      quoted (natText (lookup name.toList).length) ++ ['='] ++ quoted ['0'] := by
    simp [quoted]
  have hzero : natText (lookup name.toList).length = ['0'] ↔ lookup name.toList = [] := by
    rw [← List.length_eq_zero_iff]
    constructor
    · intro h
      have hnat := congrArg natOf h
      rwa [natOf_natText] at hnat
    · intro h
      rw [h]
      rfl
  rw [hexpr, evalExpr_isValue (notMem_natText _ rfl) (by decide), decide_eq_decide.mpr hzero,
    expandFrom_after]

/-! ### Counters and digits -/

/-- An expression over the value of a variable, in front of a rest. -/
theorem expand_overVar (hname : name.toList.all isPlainChar = true) {operation : String}
    (hoperation : operation.toList.all isPlainChar = true) (rest : Text) :
    expand lookup (("$[" ++ varRef name ++ operation ++ "]").toList ++ rest) =
      evalExpr (valueOf lookup name.toList ++ operation.toList) ++ expand lookup rest := by
  have htext : ("$[" ++ varRef name ++ operation ++ "]").toList ++ rest =
      '$' :: '[' :: '$' :: '\x7b' :: (name.toList ++ '\x7d' :: (operation.toList ++ ']' :: rest)) := by
    simp [varRef]
  rw [htext, expand, expandFrom_openExpr, expandFrom_ref lookup hname]
  simp only [put, List.nil_append]
  rw [expandFrom_frame lookup (plain_of_all hoperation), expandFrom_closeExpr]
  exact expandFrom_after lookup _ rest

theorem isPlainChar_natText (n : Nat) : (toString n).toList.all isPlainChar = true := by
  rw [List.all_eq_true]
  intro c hc
  have hdigit : isDigit c = true := isDigit_of_mem_natText hc
  have hne : ∀ d, isDigit d = false → c ≠ d := fun d hd => ne_of_isDigit hdigit hd
  simp [isPlainChar, hne '$' (by decide), hne '\x7d' (by decide), hne ']' (by decide)]

theorem valueOf_filter (v : Text) :
    valueOf lookup ("FILTER(0-9,".toList ++ v ++ [')']) = v.filter isDigit := by
  have hcut : cut '(' ("FILTER(0-9,".toList ++ v ++ [')']) =
      ("FILTER".toList, some ("0-9,".toList ++ v ++ [')'])) := by
    simpa using cut_append (show '(' ∉ "FILTER".toList by decide) ("0-9,".toList ++ v ++ [')'])
  have hcomma : cut ',' ("0-9,".toList ++ v) = ("0-9".toList, some v) := by
    simpa using cut_append (show ',' ∉ "0-9".toList by decide) v
  rw [valueOf, hcut]
  simp only [upToLast_append, hcomma, if_neg (show "FILTER".toList ≠ "LEN".toList by decide), if_true]
  refine List.filter_congr (fun c _ => ?_)
  rw [Bool.eq_iff_iff, decide_eq_true_eq]
  exact mem_charRange_digits

/-- The digits of a variable, in front of a rest. -/
theorem expand_filter (hname : name.toList.all isPlainChar = true) (rest : Text) :
    expand lookup (("$\x7bFILTER(0-9," ++ varRef name ++ ")\x7d").toList ++ rest) =
      (valueOf lookup name.toList).filter isDigit ++ expand lookup rest := by
  have htext : ("$\x7bFILTER(0-9," ++ varRef name ++ ")\x7d").toList ++ rest =
      '$' :: '\x7b' :: ("FILTER(0-9,".toList ++ '$' :: '\x7b' :: (name.toList ++
        '\x7d' :: ([')'] ++ '\x7d' :: rest))) := by
    simp [varRef]
  rw [htext, expand,
    expandFrom_call lookup hname _ _ _ (by decide) (by decide) (valueOf_filter lookup _)]
  exact expandFrom_after lookup _ rest

/-- The length of a variable against a limit, in front of a rest. -/
theorem expand_lenAtLeast (hname : name.toList.all isPlainChar = true) (n : Nat) (rest : Text) :
    expand lookup (("$[$\x7bLEN(" ++ varRef name ++ ")\x7d>=" ++ toString n ++ "]").toList ++ rest) =
      truth (n ≤ (valueOf lookup name.toList).length) ++ expand lookup rest := by
  have htext : ("$[$\x7bLEN(" ++ varRef name ++ ")\x7d>=" ++ toString n ++ "]").toList ++ rest =
      '$' :: '[' :: '$' :: '\x7b' :: ("LEN(".toList ++ '$' :: '\x7b' :: (name.toList ++
        '\x7d' :: ([')'] ++ '\x7d' :: ('>' :: '=' :: natText n ++ ']' :: rest)))) := by
    simp [varRef, natText]
  have hlimit : ∀ c ∈ '>' :: '=' :: natText n, c ≠ '$' ∧ c ≠ '\x7d' ∧ c ≠ ']' := by
    intro c hc
    rcases List.mem_cons.mp hc with rfl | hc
    · decide
    · rcases List.mem_cons.mp hc with rfl | hc
      · decide
      · exact plain_of_all (isPlainChar_natText n) c hc
  rw [htext, expand, expandFrom_openExpr,
    expandFrom_call lookup hname _ _ _ (by decide) (by decide) (valueOf_len lookup _)]
  simp only [put, List.nil_append]
  rw [expandFrom_frame lookup hlimit, expandFrom_closeExpr]
  simp only [put, List.nil_append]
  rw [evalExpr_ge, expandFrom_after]

section Counter
variable {lookup : Text → Text} {name : String} (hname : name.toList.all isPlainChar = true) {k : Nat}
  (hvalue : valueOf lookup name.toList = natText k)
include hname hvalue

/-- A counter counts. -/
theorem expand_plusOne (rest : Text) :
    expand lookup (("$[" ++ varRef name ++ "+1]").toList ++ rest) =
      natText (k + 1) ++ expand lookup rest := by
  have hover := expand_overVar lookup hname (show "+1".toList.all isPlainChar = true by decide) rest
  have hsum : evalExpr (natText k ++ "+1".toList) = natText (k + 1) := evalExpr_plus k 1
  rw [hvalue, hsum] at hover
  rw [← hover]
  simp

/-- A counter is compared with its limit. -/
theorem expand_atMost (n : Nat) (rest : Text) :
    expand lookup (("$[" ++ varRef name ++ "<=" ++ toString n ++ "]").toList ++ rest) =
      truth (k ≤ n) ++ expand lookup rest := by
  have hplain : ("<=" ++ toString n).toList.all isPlainChar = true := by
    rw [String.toList_append, List.all_append, isPlainChar_natText]
    decide
  have hover := expand_overVar lookup hname hplain rest
  have hcompare : evalExpr (natText k ++ ("<=" ++ toString n).toList) = truth (k ≤ n) := by
    rw [← evalExpr_le]
    congr 1
    simp [natText]
  rw [hvalue, hcompare] at hover
  rw [← hover]
  simp

end Counter

theorem expand_cons {c : Char} (hc : c ≠ '$') (t : Text) :
    expand lookup (c :: t) = c :: expand lookup t :=
  expand_prefix lookup (a := [c]) (by simpa using Ne.symm hc) t

end Expand

/-! ## Steps -/

section Steps
variable {dialplan : List Entry} {world : Nat → Text → Text} {s : State}

/-- A jump on a value. -/
theorem step_gotoIf_isValue {name value : String} {dest : Text}
    (hcode : stepAt dialplan s.pos =
      some ⟨none, "GotoIf".toList, (isValue name value).toList ++ '?' :: dest⟩)
    (hname : name.toList.all isPlainChar = true) (hvalue : value.toList.all isPlainChar = true)
    (hquote : '"' ∉ value.toList)
    (hshown : '"' ∉ valueOf ((s.visit none).lookup world) name.toList)
    (hdest : expand ((s.visit none).lookup world) dest ≠ [])
    (hcolon : ':' ∉ expand ((s.visit none).lookup world) dest) :
    step dialplan world s =
      if valueOf ((s.visit none).lookup world) name.toList = value.toList then
        (s.visit none).goto dialplan (expand ((s.visit none).lookup world) dest)
      else .inl (s.visit none).advance := by
  have hargs : expand ((s.visit none).lookup world) ((isValue name value).toList ++ '?' :: dest) =
      truth (valueOf ((s.visit none).lookup world) name.toList = value.toList) ++
        '?' :: expand ((s.visit none).lookup world) dest := by
    rw [expand_isValue _ hname hvalue hquote hshown, expand_cons _ (by decide)]
  rw [step_gotoIf hcode rfl hargs hdest hcolon]
  simp only [decide_eq_true_eq]

/-- The application that a branch names. -/
theorem parseApp_set (rest : Text) :
    parseApp none ("Set(".toList ++ (rest ++ [')'])) = ⟨none, "Set".toList, rest⟩ := by
  have happ : parseApp none (appText "Set".toList rest) = ⟨none, "Set".toList, rest⟩ :=
    parseApp_appText (by decide) (stripped_of (c := 'S') (d := 't') rfl rfl rfl rfl)
  rw [← happ]
  simp [appText]

/-- A variable that has no value gets one. -/
theorem step_setIfEmpty {name value : String} {shown : Text}
    (hcode : stepAt dialplan s.pos = some (setIfEmpty name value))
    (hname : name.toList.all isPlainChar = true) (hopen : '(' ∉ name.toList)
    (hset : '=' ∉ name.toList) (hmark : ':' ∉ name.toList)
    (hshown : expand ((s.visit none).lookup world) (value.toList ++ [')']) = shown ++ [')'])
    (hcolon : ':' ∉ shown) :
    step dialplan world s =
      if (s.visit none).lookup world name.toList = [] then
        .inl ((s.visit none).setVar ("__".toList ++ name.toList) shown).advance
      else .inl (s.visit none).advance := by
  have hplain : '$' ∉ "Set(__".toList ++ name.toList ++ "=".toList := by
    have hno : '$' ∉ name.toList := fun h => (plain_of_all hname _ h).1 rfl
    simp [hno]
  have hargs : (setIfEmpty name value).args = (isEmptyVar name).toList ++
      ('?' :: (("Set(__".toList ++ name.toList ++ "=".toList) ++ (value.toList ++ [')']))) := by
    simp [setIfEmpty, plainStep]
  have hexpand := expand_isEmptyVar ((s.visit none).lookup world) hname hopen
    ('?' :: (("Set(__".toList ++ name.toList ++ "=".toList) ++ (value.toList ++ [')'])))
  rw [expand_cons _ (by decide), expand_prefix _ hplain, hshown, ← hargs] at hexpand
  have hbranch : ("Set(__".toList ++ name.toList ++ "=".toList) ++ (shown ++ [')']) =
      "Set(".toList ++ (("__".toList ++ name.toList ++ '=' :: shown) ++ [')']) := by simp
  have hno : ':' ∉ "Set(".toList ++ (("__".toList ++ name.toList ++ '=' :: shown) ++ [')']) := by
    simp [hmark, hcolon]
  have hdigit : '?' ∉ truth (decide ((s.visit none).lookup world name.toList = [])) := by
    cases decide ((s.visit none).lookup world name.toList = []) <;> decide
  have hequals : '=' ∉ "__".toList ++ name.toList := by simp [hset]
  rw [hbranch] at hexpand
  rw [step_at hcode, show (setIfEmpty name value).label = none from rfl, hexpand,
    show appOf (setIfEmpty name value).app = .execIf from rfl]
  simp only [State.apply, cut_append hdigit, isTrue_truth, cut_of_notMem hno,
    decide_eq_true_eq]
  by_cases hempty : (s.visit none).lookup world name.toList = []
  · simp only [hempty, if_true, parseApp_set, show appOf "Set".toList = .set from rfl, State.basic,
      cut_append hequals]
  · simp only [hempty, if_false]

end Steps

end KasterCti.Renderers
