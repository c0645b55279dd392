import KasterCti.Library.JsText

/-!
# Paths as `path.posix` reads them

Paths are texts; their segments stand between slashes. `normalize` drops empty and
`.` segments and lets `..` take back the segment before it.
-/

namespace PosixPath

/-- A segment is put on the stack of those before it, the last one first. Above the
root `..` is dropped. -/
def pushSegment (aboveRoot : Bool) (stack : List String) (segment : String) : List String :=
  if segment = "" || segment = "." then stack
  else if segment = ".." then
    match stack with
    | [] => if aboveRoot then [".."] else []
    | top :: rest => if top = ".." then ".." :: stack else rest
  else segment :: stack

/-- The parts of a path between its slashes, empty ones included. -/
def parts (path : String) : List String := (path.toList.splitOn '/').map String.ofList

def segments (path : String) (aboveRoot : Bool) : List String :=
  ((parts path).foldl (pushSegment aboveRoot) []).reverse

def isAbsolute (path : String) : Bool := path.toList.head? = some '/'

def joined (segments : List String) : String := "/".intercalate segments

def normalize (path : String) : String :=
  let absolute := isAbsolute path
  let slash := if path.toList.getLast? = some '/' then "/" else ""
  let body := joined (segments path !absolute)
  if path = "" then "."
  else if body = "" then if absolute then "/" else "." ++ slash
  else (if absolute then "/" else "") ++ body ++ slash

/-- `path.join(a, b)`. -/
def join (a b : String) : String :=
  normalize (joined ([a, b].filter (· ≠ "")))

/-- The segments of `path.resolve(path)`. -/
def resolved (cwd path : String) : List String :=
  if isAbsolute path then segments path false else segments (cwd ++ "/" ++ path) false

/-- The segments that two paths begin with in common are left out. -/
def dropCommon : List String → List String → List String × List String
  | a :: as, b :: bs => if a = b then dropCommon as bs else (a :: as, b :: bs)
  | as, bs => (as, bs)

/-- `path.relative(path.resolve(a), path.resolve(b))`. -/
def relative (cwd a b : String) : String :=
  let rest := dropCommon (resolved cwd a) (resolved cwd b)
  joined (rest.1.map (fun _ => "..") ++ rest.2)

def basename (path : String) : String := (((parts path).filter (· ≠ "")).getLast?).getD ""

/-- `path.extname`: from the last dot of the name, unless it begins the name. -/
def extname (path : String) : String :=
  let name := (basename path).toList
  let after := name.reverse.takeWhile (· ≠ '.')
  if name.all (· = '.') || after.length = name.length || after.length + 1 = name.length then ""
  else "." ++ String.ofList after.reverse

/-! ## Names in a directory -/

/-- A segment that a path can end with as it is. -/
structure IsName (name : String) : Prop where
  nonempty : name ≠ ""
  dot : name ≠ "."
  dots : name ≠ ".."
  slash : '/' ∉ name.toList

/-- The text in front of a name that is joined to the segments. -/
def joinedFront (segments : List String) : String :=
  if segments = [] then "" else joined segments ++ "/"

theorem joined_concat (segments : List String) (name : String) :
    joined (segments ++ [name]) = joinedFront segments ++ name := by
  unfold joinedFront
  split
  · next hnil => rw [hnil, List.nil_append, joined, String.intercalate_singleton, String.empty_append]
  · next hne =>
    rw [joined, String.intercalate_append_of_ne_nil hne (List.cons_ne_nil _ _),
      String.intercalate_singleton, joined]

section Names

variable {name : String}

theorem append_name_ne (h : IsName name) (front : String) : front ++ name ≠ "" := by
  intro heq
  have hempty : (front ++ name).toList = [] := String.toList_eq_nil_iff.mpr heq
  rw [String.toList_append, List.append_eq_nil_iff] at hempty
  exact h.nonempty (String.toList_eq_nil_iff.mp hempty.2)

theorem append_name_last (h : IsName name) (front : String) :
    (front ++ name).toList.getLast? ≠ some '/' := by
  have hne : name.toList ≠ [] := fun heq => h.nonempty (String.toList_eq_nil_iff.mp heq)
  rw [String.toList_append, List.getLast?_append_of_ne_nil _ hne]
  exact fun heq => h.slash (List.mem_of_getLast? heq)

theorem pushSegment_name (h : IsName name) (aboveRoot : Bool) (stack : List String) :
    pushSegment aboveRoot stack name = name :: stack := by
  simp [pushSegment, h.nonempty, h.dot, h.dots]

theorem parts_name (h : IsName name) : parts name = [name] := by
  have hsplit : name.toList.splitOn '/' = [name.toList] := by
    refine List.splitOnP_eq_singleton fun c hc => ?_
    exact beq_eq_false_iff_ne.mpr fun heq => h.slash (heq ▸ hc)
  rw [parts, hsplit, List.map_singleton, String.ofList_toList]

theorem parts_append_name (h : IsName name) (dir : String) :
    parts (dir ++ "/" ++ name) = parts dir ++ [name] := by
  have hsplit : (dir ++ "/" ++ name).toList.splitOn '/' =
      dir.toList.splitOn '/' ++ name.toList.splitOn '/' := by
    rw [String.toList_append, String.toList_append, List.append_assoc]
    exact List.splitOn_append_cons_self _ _
  rw [parts, hsplit, List.map_append]
  exact congrArg (parts dir ++ ·) (parts_name h)

/-- A path that ends with a name is normalized in front of it. -/
theorem normalize_name (h : IsName name) {front : String} {absolute : Bool} {before : List String}
    (habsolute : isAbsolute (front ++ name) = absolute) (hparts : parts (front ++ name) = before ++ [name]) :
    normalize (front ++ name) = (if absolute then "/" else "") ++
      joinedFront (before.foldl (pushSegment !absolute) []).reverse ++ name := by
  have hsegments : segments (front ++ name) (!absolute) =
      (before.foldl (pushSegment !absolute) []).reverse ++ [name] := by
    rw [segments, hparts, List.foldl_append, List.foldl_cons, List.foldl_nil, pushSegment_name h,
      List.reverse_cons]
  rw [normalize]
  simp only [habsolute, hsegments, joined_concat, if_neg (append_name_ne h _),
    if_neg (append_name_last h _), String.append_empty, String.append_assoc]

/-- The path of a name in a directory is that of the directory, followed by the name. -/
theorem exists_join_name (dir : String) :
    ∃ front, ∀ name, IsName name → join dir name = front ++ name := by
  by_cases hdir : dir = ""
  · refine ⟨"", fun name h => ?_⟩
    have habsolute : isAbsolute ("" ++ name) = false := by
      rw [String.empty_append, isAbsolute, decide_eq_false_iff_not]
      exact fun heq => h.slash (List.mem_of_head? heq)
    have hnormal := @normalize_name name h "" false [] habsolute (by
      rw [String.empty_append, parts_name h, List.nil_append])
    rw [hdir, join, List.filter_cons_of_neg (by simp), List.filter_cons_of_pos (by simpa using h.nonempty),
      List.filter_nil, joined, String.intercalate_singleton, ← @String.empty_append name, hnormal]
    rfl
  · refine ⟨(if isAbsolute dir then "/" else "") ++
      joinedFront ((parts dir).foldl (pushSegment !isAbsolute dir) []).reverse, fun name h => ?_⟩
    have habsolute : isAbsolute (dir ++ "/" ++ name) = isAbsolute dir := by
      have hne : dir.toList ≠ [] := fun heq => hdir (String.toList_eq_nil_iff.mp heq)
      rw [isAbsolute, isAbsolute, String.append_assoc, String.toList_append,
        List.head?_append_of_ne_nil _ hne]
    have hnormal := normalize_name h habsolute (parts_append_name h dir)
    rw [join, List.filter_cons_of_pos (by simpa using hdir),
      List.filter_cons_of_pos (by simpa using h.nonempty), List.filter_nil, joined,
      String.intercalate_cons_cons, String.intercalate_singleton, hnormal]

end Names

example : normalize "/a/./b//../c.wav" = "/a/c.wav" ∧ join "/root" "x/../a.wav" = "/root/a.wav" ∧
    relative "/" "/root/rec" "/root/x.wav" = "../x.wav" ∧ extname "/a/b.RAW" = ".RAW" := by
  decide

end PosixPath
