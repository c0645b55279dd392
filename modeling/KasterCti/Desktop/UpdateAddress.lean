import KasterCti.Desktop.CallStateStore
import Mathlib

/-!
# The address of an update file

`UpdateClient.ResolveArtifactUri`: the server names the file of an update, as an absolute address
or as a path, and the request for it carries the download token. `System.Uri` is a parameter.

Results:
1. `resolve_staysOnServer_iff`: exactly when the address is one of the configured server.
2. `hidden_address`: an absolute address behind a slash.
-/

namespace KasterCti.Desktop

structure Uri where
  scheme : List Char
  host : List Char
  port : Int
  rest : List Char
deriving DecidableEq

/-- What the client uses of `System.Uri` and of the ordinal comparison without case. -/
structure UriLibrary where
  tryCreateAbsolute : List Char → Option Uri
  combine : Uri → List Char → Except String Uri
  escapeDataString : String → List Char
  upper : Char → Char

def UriLibrary.equalsIgnoreCase (uris : UriLibrary) (left right : List Char) : Bool :=
  left.map uris.upper = right.map uris.upper

def UriLibrary.sameServer (uris : UriLibrary) (baseAddress absolute : Uri) : Bool :=
  uris.equalsIgnoreCase absolute.scheme baseAddress.scheme &&
    uris.equalsIgnoreCase absolute.host baseAddress.host && absolute.port = baseAddress.port

def trimStart (text : List Char) : List Char := text.dropWhile (· = '/')

def resolveArtifactUri (uris : UriLibrary) (baseAddress : Uri) (downloadUrl : Option String)
    (artifactId : String) : Except String Uri :=
  match downloadUrl.map trimmed with
  | none | some [] =>
    uris.combine baseAddress ("agent-updates/artifacts/".toList ++ uris.escapeDataString artifactId)
  | some given =>
    match uris.tryCreateAbsolute given with
    | some absolute =>
      if uris.sameServer baseAddress absolute then .ok absolute
      else .error "다운로드 주소가 이 서버가 아니다. 받지 않는다."
    | none => uris.combine baseAddress (trimStart given)

/-- What `System.Uri` does on Windows. -/
structure UriLibrary.Documented (uris : UriLibrary) : Prop where
  /-- An absolute reference is its own resolution. -/
  absolute : ∀ base reference uri, uris.tryCreateAbsolute reference = some uri →
    uris.combine base reference = .ok uri
  /-- A relative path keeps the server. -/
  relative : ∀ base reference uri, uris.tryCreateAbsolute reference = none →
    reference.head? ≠ some '/' → uris.combine base reference = .ok uri →
    uri.scheme = base.scheme ∧ uri.host = base.host ∧ uri.port = base.port
  /-- One slash does not begin an absolute address. -/
  singleSlash : ∀ rest : List Char, rest.head? ≠ some '/' → rest.head? ≠ some '\\' →
    uris.tryCreateAbsolute ('/' :: rest) = none
  /-- The path of the artifacts is relative. -/
  artifacts : ∀ artifactId, uris.tryCreateAbsolute
    ("agent-updates/artifacts/".toList ++ uris.escapeDataString artifactId) = none

/-- The address is refused, or it is one of the configured server. -/
def StaysOnServer (uris : UriLibrary) (baseAddress : Uri) (resolved : Except String Uri) : Prop :=
  ∀ uri, resolved = .ok uri → uris.sameServer baseAddress uri = true

section Resolve

variable {uris : UriLibrary} {baseAddress : Uri}

theorem sameServer_of_eq {uri : Uri}
    (equal : uri.scheme = baseAddress.scheme ∧ uri.host = baseAddress.host ∧
      uri.port = baseAddress.port) : uris.sameServer baseAddress uri = true := by
  obtain ⟨scheme, host, port⟩ := equal
  simp [UriLibrary.sameServer, UriLibrary.equalsIgnoreCase, scheme, host, port]

theorem head?_trimStart (text : List Char) : (trimStart text).head? ≠ some '/' := by
  intro slash
  have stop := List.head?_dropWhile_not (decide <| · = '/') text
  rw [show text.dropWhile (decide <| · = '/') = trimStart text from rfl, slash] at stop
  exact absurd stop (by decide)

/-- A reference without a slash in front stays on the server unless it is absolute. -/
theorem combine_staysOnServer_iff (documented : uris.Documented) {reference : List Char}
    (noSlash : reference.head? ≠ some '/') :
    StaysOnServer uris baseAddress (uris.combine baseAddress reference) ↔
      ∀ uri, uris.tryCreateAbsolute reference = some uri →
        uris.sameServer baseAddress uri = true := by
  cases isAbsolute : uris.tryCreateAbsolute reference with
  | some absolute =>
    rw [StaysOnServer, documented.absolute baseAddress reference absolute isAbsolute]
    exact forall_congr' fun uri => by rw [Except.ok.injEq, Option.some.injEq]
  | none =>
    refine iff_of_true (fun uri resolved => ?_) fun uri absurdity => by cases absurdity
    exact sameServer_of_eq (documented.relative baseAddress reference uri isAbsolute noSlash resolved)

/-- The token stays on the server exactly when no foreign address hides behind the slashes of a
reference that is not absolute. -/
theorem resolve_staysOnServer_iff (documented : uris.Documented) (downloadUrl : Option String)
    (artifactId : String) :
    StaysOnServer uris baseAddress
        (resolveArtifactUri uris baseAddress downloadUrl artifactId) ↔
      ∀ given, downloadUrl.map trimmed = some given → given ≠ [] →
        uris.tryCreateAbsolute given = none →
          ∀ uri, uris.tryCreateAbsolute (trimStart given) = some uri →
            uris.sameServer baseAddress uri = true := by
  have byArtifact : StaysOnServer uris baseAddress (uris.combine baseAddress
      ("agent-updates/artifacts/".toList ++ uris.escapeDataString artifactId)) := by
    refine (combine_staysOnServer_iff documented (by simp)).mpr fun uri isAbsolute => ?_
    rw [documented.artifacts artifactId] at isAbsolute
    cases isAbsolute
  rw [resolveArtifactUri]
  split
  · rename_i none
    exact iff_of_true byArtifact fun given isGiven => by rw [none] at isGiven; cases isGiven
  · rename_i empty
    refine iff_of_true byArtifact fun given isGiven nonempty => ?_
    rw [empty] at isGiven
    exact absurd (Option.some.inj isGiven).symm nonempty
  · rename_i given nonempty isGiven
    rw [isGiven]
    split
    · rename_i absolute isAbsolute
      refine iff_of_true (fun uri resolved => ?_) fun other equal _ notAbsolute => ?_
      · split at resolved
        · cases resolved
          assumption
        · cases resolved
      · rw [← Option.some.inj equal, isAbsolute] at notAbsolute
        cases notAbsolute
    · rename_i notAbsolute
      rw [combine_staysOnServer_iff documented (head?_trimStart given)]
      refine ⟨fun stays other equal _ _ => Option.some.inj equal ▸ stays, fun harmless => ?_⟩
      exact harmless given rfl nonempty notAbsolute

end Resolve

/-- An absolute address of the two schemes with their own ports. -/
def plainAbsolute (text : List Char) : Option Uri :=
  if ['h', 't', 't', 'p', 's', ':', '/', '/'] <+: text then
    some ⟨"https".toList, (text.drop 8).takeWhile (· ≠ '/'), 443, (text.drop 8).dropWhile (· ≠ '/')⟩
  else if ['h', 't', 't', 'p', ':', '/', '/'] <+: text then
    some ⟨"http".toList, (text.drop 7).takeWhile (· ≠ '/'), 80, (text.drop 7).dropWhile (· ≠ '/')⟩
  else none

/-- The resolution of such addresses and of paths. -/
def plainCombine (base : Uri) (reference : List Char) : Except String Uri :=
  .ok ((plainAbsolute reference).getD { base with rest := '/' :: reference })

def plainUris : UriLibrary := ⟨plainAbsolute, plainCombine, String.toList, Char.toUpper⟩

theorem plainUris_of_head {text : List Char} (other : text.head? ≠ some 'h') :
    plainUris.tryCreateAbsolute text = none := by
  have noScheme (scheme : List Char) : ¬ 'h' :: scheme <+: text := by
    rintro ⟨rest, rfl⟩
    exact other rfl
  exact (if_neg (noScheme _)).trans (if_neg (noScheme _))

theorem plainUris_documented : plainUris.Documented where
  absolute base reference uri isAbsolute := by
    have found : plainAbsolute reference = some uri := isAbsolute
    exact congrArg (fun found : Option Uri => Except.ok (found.getD _)) found
  relative base reference uri notAbsolute _ resolved := by
    have none : plainAbsolute reference = none := notAbsolute
    have isBase : plainCombine base reference = .ok uri := resolved
    rw [plainCombine, none] at isBase
    cases isBase
    exact ⟨rfl, rfl, rfl⟩
  singleSlash rest _ _ := plainUris_of_head (by simp)
  artifacts artifactId := plainUris_of_head (by simp)

def updateServer : Uri := ⟨"https".toList, "cti.example.com".toList, 443, "/api/v1/".toList⟩

/-- A path as the server gives it. -/
theorem path_staysOnServer : StaysOnServer plainUris updateServer
    (resolveArtifactUri plainUris updateServer (some "/agent-updates/artifacts/7") "7") := by
  refine (resolve_staysOnServer_iff plainUris_documented _ _).mpr fun given isGiven _ _ uri => ?_
  obtain rfl : "/agent-updates/artifacts/7".toList = given := by
    rw [← Option.some.inj isGiven]
    decide
  intro isAbsolute
  cases (plainUris_of_head (by decide)).symm.trans isAbsolute

/-- Behind one slash an address of another server is taken for a path, and resolved as what it is. -/
theorem hidden_address :
    plainUris.Documented ∧
      resolveArtifactUri plainUris updateServer (some "/http://evil.example.com/setup.exe") "7" =
        .ok ⟨"http".toList, "evil.example.com".toList, 80, "/setup.exe".toList⟩ ∧
      ¬ StaysOnServer plainUris updateServer
        (resolveArtifactUri plainUris updateServer (some "/http://evil.example.com/setup.exe")
          "7") := by
  have resolved : resolveArtifactUri plainUris updateServer
      (some "/http://evil.example.com/setup.exe") "7" =
        .ok ⟨"http".toList, "evil.example.com".toList, 80, "/setup.exe".toList⟩ := by
    decide
  refine ⟨plainUris_documented, resolved, fun stays => ?_⟩
  exact absurd (stays _ resolved) (by decide)

end KasterCti.Desktop
