import KasterCti.Library.Dialplan

/-!
# Which extension a number reaches

An extension name is literal, or a pattern when it starts with an underscore:
`X`, `Z` and `N` stand for the digits from 0, 1 and 2 on, brackets for a set of
characters, `.` for one or more characters and `!` for any rest. A literal name
wins over every pattern; among patterns the most specific one wins, compared
from the left, the smaller set before the larger one and the wildcards last.
-/

namespace Dialplan

/-- One position of a pattern. -/
inductive Elem
  | one (chars : List Char)
  | wild
  | rest

/-- The characters between brackets, with `a-b` written out. -/
def charRange : List Char → List Char
  | a :: '-' :: b :: t =>
    (List.range (b.toNat + 1 - a.toNat)).map (fun i => Char.ofNat (a.toNat + i)) ++ charRange t
  | a :: t => a :: charRange t
  | [] => []

def digitsFrom (lo : Nat) : List Char := (['0', '1', '2', '3', '4', '5', '6', '7', '8', '9']).drop lo

theorem isDigit_of_mem_digitsFrom {lo : Nat} {c : Char} (h : c ∈ digitsFrom lo) :
    isDigit c = true := by
  have hall : ∀ c ∈ ['0', '1', '2', '3', '4', '5', '6', '7', '8', '9'], isDigit c = true := by
    decide
  exact hall c (List.mem_of_mem_drop h)

theorem mem_digitsFrom_zero {c : Char} : c ∈ digitsFrom 0 ↔ isDigit c = true := by
  refine ⟨isDigit_of_mem_digitsFrom, ?_⟩
  intro h
  simp only [isDigit, Bool.and_eq_true, decide_eq_true_eq] at h
  have hlow : 48 ≤ c.toNat := h.1
  have hhigh : c.toNat ≤ 57 := h.2
  have hall : ∀ n : Fin 10, Char.ofNat (48 + n) ∈ digitsFrom 0 := by decide
  have hc := hall ⟨c.toNat - 48, by omega⟩
  rwa [show 48 + (c.toNat - 48) = c.toNat by omega, Char.ofNat_toNat] at hc

theorem mem_charRange_digits {c : Char} : c ∈ charRange "0-9".toList ↔ isDigit c = true := by
  have hrange : charRange "0-9".toList = digitsFrom 0 := by decide
  rw [hrange, mem_digitsFrom_zero]

/-- The pattern behind the underscore; `set` holds the open bracket, last
character first. -/
def parsePattern (set : Option (List Char)) : Text → List Elem
  | [] => []
  | c :: t =>
    match set with
    | some chars =>
      if c = ']' then .one (charRange chars.reverse) :: parsePattern none t
      else parsePattern (some (c :: chars)) t
    | none =>
      if c = '[' then parsePattern (some []) t
      else if c = 'X' || c = 'x' then .one (digitsFrom 0) :: parsePattern none t
      else if c = 'Z' || c = 'z' then .one (digitsFrom 1) :: parsePattern none t
      else if c = 'N' || c = 'n' then .one (digitsFrom 2) :: parsePattern none t
      else if c = '.' then .wild :: parsePattern none t
      else if c = '!' then .rest :: parsePattern none t
      else if c = '-' then parsePattern none t
      else .one [c] :: parsePattern none t

def matchElems : List Elem → Text → Bool
  | [], [] => true
  | .one chars :: es, c :: t => c ∈ chars && matchElems es t
  | .wild :: _, _ :: _ => true
  | .rest :: _, _ => true
  | _, _ => false

def patternOf : Text → Option (List Elem)
  | '_' :: t => some (parsePattern none t)
  | _ => none

def matchesExten (name dialled : Text) : Bool :=
  match patternOf name with
  | some elems => matchElems elems dialled
  | none => name = dialled

/-- How many characters a position admits, and the least of them. -/
def Elem.rank : Elem → Nat
  | .one chars => chars.length * 256 + (chars.map Char.toNat).foldr min 255
  | .wild => 0x18000
  | .rest => 0x28000

/-- The order of patterns: smaller ranks are more specific, and a pattern that
goes on is more specific than one that has ended. -/
def moreSpecific : List Elem → List Elem → Bool
  | [], _ => false
  | _ :: _, [] => true
  | a :: as, b :: bs => a.rank < b.rank || (a.rank = b.rank && moreSpecific as bs)

/-- The better one of two names that match: a literal name, else the more
specific pattern, else the earlier one. -/
def betterExten (best name : Text) : Text :=
  match patternOf best, patternOf name with
  | none, _ => best
  | some _, none => name
  | some a, some b => if moreSpecific b a then name else best

/-- The best of the names that match, the literal names first. -/
def bestExten (names : List Text) (dialled : Text) : Option Text :=
  match names.filter (fun name => matchesExten name dialled) with
  | [] => none
  | name :: rest => some (rest.foldl betterExten name)

def extensOf (dialplan : List Entry) (context : Text) : List Text :=
  (dialplan.filter (fun entry => entry.context = context)).map Entry.exten

/-- The extension of the context that the number reaches. -/
def extenFor (dialplan : List Entry) (context dialled : Text) : Option Text :=
  bestExten (extensOf dialplan context) dialled

/-! ## Literal names -/

variable {dialled : Text}

theorem betterExten_literal (hlit : patternOf dialled = none) (name : Text) :
    betterExten dialled name = dialled := by
  simp [betterExten, hlit]

theorem foldl_betterExten_literal (hlit : patternOf dialled = none) (rest : List Text) :
    rest.foldl betterExten dialled = dialled := by
  induction rest with
  | nil => rfl
  | cons name rest ih => rw [List.foldl_cons, betterExten_literal hlit, ih]

/-- A literal name among the candidates wins. -/
theorem foldl_betterExten_of_mem (hlit : patternOf dialled = none) (best : Text) (rest : List Text)
    (hmatch : ∀ name ∈ best :: rest, matchesExten name dialled = true)
    (hmem : dialled ∈ best :: rest) : rest.foldl betterExten best = dialled := by
  induction rest generalizing best with
  | nil =>
    rw [List.mem_singleton] at hmem
    exact hmem.symm
  | cons name rest ih =>
    have hliteral : ∀ n, patternOf n = none → matchesExten n dialled = true → n = dialled := by
      intro n hn hm
      simpa [matchesExten, hn] using hm
    rw [List.foldl_cons]
    by_cases hbest : best = dialled
    · rw [hbest, betterExten_literal hlit, foldl_betterExten_literal hlit]
    · have hpattern : patternOf best ≠ none := fun hn =>
        hbest (hliteral best hn (hmatch best (by simp)))
      obtain ⟨elems, helems⟩ := Option.ne_none_iff_exists'.mp hpattern
      rcases List.mem_cons.mp hmem with hmem | hmem
      · exact absurd hmem.symm hbest
      · apply ih
        · intro n hn
          rcases List.mem_cons.mp hn with rfl | hn
          · unfold betterExten
            split
            · exact hmatch _ (by simp)
            · exact hmatch _ (by simp)
            · split
              · exact hmatch _ (by simp)
              · exact hmatch _ (by simp)
          · exact hmatch n (by simp [hn])
        · rcases List.mem_cons.mp hmem with rfl | hmem
          · simp [betterExten, helems, hlit]
          · exact List.mem_cons_of_mem _ hmem

variable {names : List Text}

theorem bestExten_literal (hlit : patternOf dialled = none) (h : dialled ∈ names) :
    bestExten names dialled = some dialled := by
  have hself : matchesExten dialled dialled = true := by simp [matchesExten, hlit]
  have hmem : dialled ∈ names.filter (fun name => matchesExten name dialled) :=
    List.mem_filter.mpr ⟨h, hself⟩
  unfold bestExten
  split
  · rename_i hnil
    rw [hnil] at hmem
    cases hmem
  · rename_i name rest hcons
    rw [hcons] at hmem
    rw [foldl_betterExten_of_mem hlit name rest ?_ hmem]
    intro n hn
    rw [← hcons] at hn
    exact (List.mem_filter.mp hn).2

theorem betterExten_cases (best name : Text) :
    betterExten best name = best ∨ betterExten best name = name := by
  unfold betterExten
  split
  · exact .inl rfl
  · exact .inr rfl
  · split
    · exact .inr rfl
    · exact .inl rfl

theorem foldl_betterExten_mem (best : Text) (rest : List Text) :
    rest.foldl betterExten best ∈ best :: rest := by
  induction rest generalizing best with
  | nil => simp
  | cons name rest ih =>
    rw [List.foldl_cons]
    have hmem := ih (betterExten best name)
    rcases betterExten_cases best name with h | h
    · rw [h] at hmem ⊢
      rcases List.mem_cons.mp hmem with hmem | hmem
      · exact List.mem_cons.mpr (.inl hmem)
      · exact List.mem_cons_of_mem _ (List.mem_cons_of_mem _ hmem)
    · rw [h] at hmem ⊢
      exact List.mem_cons_of_mem _ hmem

/-- What is chosen is one of the names, and it matches. -/
theorem bestExten_some {dialled name : Text} (h : bestExten names dialled = some name) :
    name ∈ names ∧ matchesExten name dialled = true := by
  unfold bestExten at h
  split at h
  · cases h
  · rename_i first rest heq
    obtain rfl := Option.some.inj h
    exact List.mem_filter.mp (heq ▸ foldl_betterExten_mem first rest)

/-- A name that matches and that no other matching name beats is chosen, wherever it stands. -/
theorem bestExten_of_best {dialled best : Text} (hmem : best ∈ names)
    (hmatch : matchesExten best dialled = true)
    (hbest : ∀ name ∈ names, matchesExten name dialled = true → name ≠ best →
      betterExten name best = best ∧ betterExten best name = best) :
    bestExten names dialled = some best := by
  have hin : best ∈ names.filter (fun name => matchesExten name dialled) :=
    List.mem_filter.mpr ⟨hmem, hmatch⟩
  have hwins : ∀ name ∈ names.filter (fun name => matchesExten name dialled), name ≠ best →
      betterExten name best = best ∧ betterExten best name = best := by
    intro name hname
    exact hbest name (List.mem_filter.mp hname).1 (List.mem_filter.mp hname).2
  unfold bestExten
  split
  · rename_i hnil
    rw [hnil] at hin
    cases hin
  · rename_i first rest heq
    rw [heq] at hin hwins
    clear heq
    induction rest generalizing first with
    | nil => rw [List.mem_singleton.mp hin, List.foldl_nil]
    | cons name rest ih =>
      rw [List.foldl_cons]
      have hself : betterExten best best = best := by
        rcases betterExten_cases best best with h | h <;> exact h
      -- the better one of the first two is the best one, or both are still to be beaten
      have hnext : best ∈ betterExten first name :: rest := by
        by_cases hfirst : first = best
        · subst hfirst
          by_cases hname : name = first
          · rw [hname, hself]
            exact List.mem_cons_self
          · rw [(hwins name (by simp) hname).2]
            exact List.mem_cons_self
        · rcases List.mem_cons.mp hin with h | h
          · exact absurd h.symm hfirst
          · rcases List.mem_cons.mp h with rfl | h
            · rw [(hwins first (by simp) hfirst).1]
              exact List.mem_cons_self
            · exact List.mem_cons_of_mem _ h
      refine ih _ ?_ hnext
      intro other hother hne
      rcases List.mem_cons.mp hother with rfl | hother
      · rcases betterExten_cases first name with h | h
        · rw [h] at hne ⊢
          exact hwins first (by simp) hne
        · rw [h] at hne ⊢
          exact hwins name (by simp) hne
      · exact hwins other (by simp [hother]) hne

/-- The first name that matches is chosen, when no matching name is better than it. -/
theorem bestExten_of_first {dialled first : Text}
    (hfirst : names.find? (fun name => matchesExten name dialled) = some first)
    (hbest : ∀ name ∈ names, matchesExten name dialled = true → betterExten first name = first) :
    bestExten names dialled = some first := by
  obtain ⟨hmatch, before, after, rfl, hno⟩ := List.find?_eq_some_iff_append.mp hfirst
  have hbefore : before.filter (fun name => matchesExten name dialled) = [] := by
    rw [List.filter_eq_nil_iff]
    intro name hname
    simpa using hno name hname
  have hkeeps : ∀ rest : List Text, (∀ name ∈ rest, betterExten first name = first) →
      rest.foldl betterExten first = first := by
    intro rest hrest
    induction rest with
    | nil => rfl
    | cons name rest ih =>
      rw [List.foldl_cons, hrest name List.mem_cons_self]
      exact ih (fun other hother => hrest other (List.mem_cons_of_mem _ hother))
  have hhead : (first :: after).filter (fun name => matchesExten name dialled) =
      first :: after.filter (fun name => matchesExten name dialled) :=
    List.filter_cons_of_pos hmatch
  rw [bestExten, List.filter_append, hbefore, List.nil_append, hhead]
  refine congrArg some (hkeeps _ ?_)
  intro name hname
  obtain ⟨hname, hmatches⟩ := List.mem_filter.mp hname
  exact hbest name (List.mem_append.mpr (.inr (List.mem_cons_of_mem _ hname))) hmatches

/-- Of two names that both match, the first one is chosen, in either order. -/
def Beats (a b : Text) : Prop := betterExten b a = a ∧ betterExten a b = a

instance (a b : Text) : Decidable (Beats a b) := inferInstanceAs (Decidable (_ ∧ _))

theorem beats_of_moreSpecific {a b : Text} {as bs : List Elem} (ha : patternOf a = some as)
    (hb : patternOf b = some bs) (h : moreSpecific as bs = true) (h' : moreSpecific bs as = false) :
    Beats a b := by
  simp [Beats, betterExten, ha, hb, h, h']

/-- The first name that passes a test, from the most specific one on, beats the others that do. -/
theorem beats_of_find? {order : List Text} (horder : order.Pairwise Beats) {p : Text → Bool}
    {best name : Text} (hfind : order.find? p = some best) (hname : name ∈ order)
    (hp : p name = true) (hne : name ≠ best) : Beats best name := by
  obtain ⟨-, before, after, rfl, hno⟩ := List.find?_eq_some_iff_append.mp hfind
  rcases List.mem_append.mp hname with hbefore | hafter
  · have hnot := hno name hbefore
    rw [hp] at hnot
    cases hnot
  · rcases List.mem_cons.mp hafter with rfl | hafter
    · exact absurd rfl hne
    · exact (List.pairwise_cons.mp (List.pairwise_append.mp horder).2.1).1 name hafter

/-- Among names that are known from the most specific one on, the first match is chosen. -/
theorem bestExten_of_order {names order : List Text} (horder : order.Pairwise Beats)
    (hnames : ∀ name ∈ names, name ∈ order) (hall : ∀ name ∈ order, name ∈ names)
    (dialled : Text) :
    bestExten names dialled = order.find? (fun name => matchesExten name dialled) := by
  cases hfind : order.find? (fun name => matchesExten name dialled) with
  | none =>
    have hnil : names.filter (fun name => matchesExten name dialled) = [] := by
      rw [List.filter_eq_nil_iff]
      intro name hname
      exact List.find?_eq_none.mp hfind name (hnames name hname)
    rw [bestExten, hnil]
  | some best =>
    have hmatch := List.find?_some hfind
    refine bestExten_of_best (hall best (List.mem_of_find?_eq_some hfind)) hmatch ?_
    intro name hname hother hne
    exact beats_of_find? horder hfind (hnames name hname) hother hne

/-- A number that a name matches reaches a name. -/
theorem exists_bestExten {dialled name : Text} (hname : name ∈ names)
    (hmatch : matchesExten name dialled = true) : ∃ best, bestExten names dialled = some best := by
  have hmem : name ∈ names.filter (fun name => matchesExten name dialled) :=
    List.mem_filter.mpr ⟨hname, hmatch⟩
  unfold bestExten
  split
  · rename_i hnil
    rw [hnil] at hmem
    cases hmem
  · exact ⟨_, rfl⟩

end Dialplan
