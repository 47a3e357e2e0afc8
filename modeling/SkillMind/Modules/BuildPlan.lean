import SkillMind.Modules.StaticAnalysis
import SkillMind.Skills.SourceStorage

/-!
# Whether a module may be built

A build needs a registry that is not public, and a lockfile that names no public registry and no
source outside the registry. The lockfile is free text: two patterns are searched in it, and what
the second one cuts out is split by `urlsplit`. What this finds and what it misses is exact.
-/

namespace SkillMind.Modules.BuildPlan

open Library SkillMind.Core
open Skills (strip)

/-- NFKC, and what `_check_bracketed_netloc` accepts. -/
structure UrlTables where
  normalize : List Char → List Char
  bracketed : List Char → Bool

def isOneOf (chars : String) (c : Char) : Bool := chars.toList.contains c

/-- `lstrip` of control characters and blanks, and the removal of `_UNSAFE_URL_BYTES_TO_REMOVE`. -/
def sanitized (url : List Char) : List Char :=
  (url.dropWhile fun c => decide (c.toNat ≤ 0x20)).filter fun c => !isOneOf "\t\r\n" c

/-- The scheme in lower case, and what is behind its colon. -/
def splitScheme (url : List Char) : List Char × List Char :=
  let before := url.takeWhile fun c => c != ':'
  match url.drop before.length with
  | [] => ([], url)
  | _ :: rest =>
    if before.head?.any Char.isAlpha && before.all fun c => c.isAlphanum || isOneOf "+-." c then
      (before.map Char.toLower, rest)
    else ([], url)

def splitNetloc : List Char → List Char
  | '/' :: '/' :: rest => rest.takeWhile fun c => !isOneOf "/?#" c
  | _ => []

/-- `_checknetloc` accepts. -/
def checkNetloc (tables : UrlTables) (netloc : List Char) : Bool :=
  let plain := netloc.filter fun c => !isOneOf "@:#?" c
  netloc.all (fun c => decide (c.toNat < 128)) || tables.normalize plain == plain ||
    (tables.normalize plain).all fun c => !isOneOf "/?#@:" c

/-- `_hostinfo`: behind the last `@`, in brackets or before the port. -/
def hostinfo (netloc : List Char) : List Char :=
  let info := netloc.rtakeWhile fun c => c != '@'
  if info.contains '[' then ((info.dropWhile fun c => c != '[').drop 1).takeWhile fun c => c != ']'
  else info.takeWhile fun c => c != ':'

/-- The host, in lower case up to a zone. -/
def hostname (netloc : List Char) : Option (List Char) :=
  match hostinfo netloc with
  | [] => none
  | host => some ((host.takeWhile fun c => c != '%').flatMap lowered ++
      host.dropWhile fun c => c != '%')

structure SplitResult where
  scheme : List Char
  hostname : Option (List Char)

/-- `urlsplit`; without a result it raises `ValueError`. -/
def urlsplit (tables : UrlTables) (url : List Char) : Option SplitResult :=
  let split := splitScheme (sanitized url)
  let netloc := splitNetloc split.2
  if netloc.contains '[' != netloc.contains ']' then none
  else if netloc.contains '[' && !tables.bracketed netloc then none
  else if !checkNetloc tables netloc then none
  else some ⟨split.1, hostname netloc⟩

/-! ## The decision -/

def publicRegistryHosts : List String :=
  ["registry.npmjs.org", "registry.npmjs.com", "registry.yarnpkg.com", "npm.pkg.github.com",
    "skimdb.npmjs.com", "cdn.jsdelivr.net", "unpkg.com"]

def isPublic (host : Option (List Char)) : Bool :=
  host.any fun name => (publicRegistryHosts.map String.toList).contains (name.flatMap lowered)

/-- What ends a match of `_LOCKFILE_URL`. -/
def isCut (c : Char) : Bool := isSpace c || isOneOf "\"',#)]" c

/-- `_LOCKFILE_URL` at the start of a text. -/
def urlAt (text : List Char) : Option (List Char) :=
  let head := if (text.take 7).map foldCase = "http://".toList then 7
    else if (text.take 8).map foldCase = "https://".toList then 8 else 0
  let run := (text.drop head).takeWhile fun c => !isCut c
  if head = 0 ∨ run = [] then none else some (text.take head ++ run)

/-- The matches from this place on, behind the rest of one. -/
def urlsFrom (place : Nat) : Nat → List Char → List (Nat × List Char)
  | _, [] => []
  | rest + 1, _ :: text => urlsFrom (place + 1) rest text
  | 0, c :: text =>
    match urlAt (c :: text) with
    | none => urlsFrom (place + 1) 0 text
    | some url => (place, url) :: urlsFrom (place + 1) (url.length - 1) text

/-- `_LOCKFILE_URL.finditer`. -/
def lockfileUrls (lockfile : List Char) : List (Nat × List Char) := urlsFrom 0 0 lockfile

def folded (name : String) : List Piece :=
  name.toList.map fun c => .charOf fun d => foldCase d == c

def nonRegistryNames : List String :=
  ["git+http://", "git+https://", "git+ssh://", "git://", "ssh://", "github:", "gitlab:",
    "bitbucket:", "file:", "link:", "portal:"]

def lockfileNonRegistry : Rule :=
  ⟨"lockfile_has_non_registry_source", nonRegistryNames.map fun name => .boundary :: folded name⟩

inductive BuildFault where
  | refused (code message : String)
  /-- `ValueError`. -/
  | valueError

section Plan

variable (library : StandardLibrary) (tables : UrlTables)

def split (url : List Char) : Except BuildFault SplitResult :=
  orFault .valueError (urlsplit tables url)

def rejectPublicUrls : List (List Char) → Except BuildFault Unit
  | [] => .ok ()
  | url :: rest => do
    let parts ← split tables url
    if isPublic parts.hostname then
      .error (.refused "lockfile_resolves_to_public_registry"
        "Module lockfile resolves a dependency from a public registry")
    else rejectPublicUrls rest

def rejectPublicLockfileSources (lockfile : List Char) : Except BuildFault Unit :=
  if lockfileNonRegistry.search library lockfile then
    .error (.refused "lockfile_has_non_registry_source"
      "Module lockfile resolves a dependency outside the npm registry")
  else rejectPublicUrls tables ((lockfileUrls lockfile).map Prod.snd)

/-- `plan_module_build`: the registry of the plan. -/
def planModuleBuild (registryUrl : Option (List Char)) (lockfile : List Char) :
    Except BuildFault (List Char) := do
  let resolved := strip (registryUrl.getD [])
  if resolved = [] then
    .error (.refused "registry_not_configured"
      "Module build requires an internal npm registry; it is not configured")
  else
    let parts ← split tables resolved
    if !(["http".toList, "https".toList].contains parts.scheme) ∨ parts.hostname = none then
      .error (.refused "registry_url_invalid"
        "Module build registry must be an absolute http(s) URL")
    else if isPublic parts.hostname then
      .error (.refused "registry_is_public"
        "Module build registry points at a public registry")
    else
      rejectPublicLockfileSources library tables lockfile
      return resolved

end Plan

/-- A network location that names a public host: user-info, the host in any case, perhaps with a
trailing dot, and a port. -/
structure PublicName where
  user : List Char
  host : List Char
  dotted : Bool
  port : List Char
  user_form : user = [] ∨ ∃ info, user = info ++ ['@'] ∧
    ∀ c ∈ info, c.isAlphanum = true ∨ isOneOf "-._~%!$&'()*+,;=:" c = true
  host_form : ∃ name ∈ publicRegistryHosts, host.map Char.toLower = name.toList
  port_form : port = [] ∨ ∃ digits, port = ':' :: digits ∧ ∀ d ∈ digits, d.isDigit = true

def PublicName.text (name : PublicName) : List Char :=
  name.user ++ (name.host ++ ((if name.dotted then ['.'] else []) ++ name.port))

/-- The character goes on with a network location. -/
def continues (c : Char) : Bool :=
  c.isAlphanum || isOneOf "-._~%:@!$&*+;=" c || decide (128 ≤ c.toNat)

/-- A text that starts with an `http` or `https` URL that names a public host. -/
structure PublicUrl (text : List Char) where
  scheme : List Char
  name : PublicName
  rest : List Char
  scheme_form : scheme.map Char.toLower ∈ ["http".toList, "https".toList]
  text_eq : text = scheme ++ ("://".toList ++ (name.text ++ rest))
  ends : ∀ c ∈ rest.head?, continues c = false

/-- One of the names stands at this place, in any case and at a word boundary. -/
def NamedAt (library : StandardLibrary) (names : List String) (text : List Char) (place : Nat) :
    Prop :=
  ∃ name ∈ names, ((text.drop place).take name.toList.length).map Char.toLower = name.toList ∧
    ((text.take place).getLast?.any (isWord library) !=
      (text.drop place).head?.any (isWord library)) = true

/-- What goes on behind `before` is a part of a URL. -/
def inUrl (before : List Char) : Bool :=
  (before.rtakeWhile fun c => !isCut c).tails.any fun text => "://".toList.isPrefixOf text

/-- A character of a user, a host or the name of a package. -/
def isNameChar (c : Char) : Bool :=
  c.isAlphanum || isOneOf "-._" c || decide (128 ≤ c.toNat)

/-- What stands before a colon without being a host. -/
def protocolNames : List String :=
  ["bitbucket", "catalog", "exec", "file", "gist", "github", "gitlab", "jsr", "link", "npm",
    "patch", "portal", "virtual", "workspace"]

/-- The host at the start of a text, in brackets or as a name. -/
def hostOf : List Char → List Char
  | '[' :: text =>
    '[' :: (text.takeWhile fun c => c != ']') ++ (text.dropWhile fun c => c != ']').take 1
  | text => text.takeWhile isNameChar

/-- A name stands before the `@` at this place, which is in no URL. -/
def namesSource (text : List Char) (place : Nat) : Bool :=
  (text.take place).getLast?.any isNameChar && text[place]? == some '@' &&
    !inUrl (text.take place)

/-- `user@host:path` with its `@` at this place, where the host is no protocol and the path goes on
without a blank and not as that of a URL. -/
def scpLikeAt (text : List Char) (place : Nat) : Bool :=
  let behind := text.drop (place + 1)
  let host := hostOf behind
  let path := behind.drop (host.length + 1)
  namesSource text place && !host.isEmpty && behind[host.length]? == some ':' &&
    !(protocolNames.map String.toList).contains (host.map Char.toLower) &&
    path.head?.any (fun c => !isSpace c && !isOneOf "\"'" c) && !"//".toList.isPrefixOf path

/-- `name@owner/repo` with its `@` at this place. -/
def shorthandAt (text : List Char) (place : Nat) : Bool :=
  let behind := text.drop (place + 1)
  let owner := behind.takeWhile fun c => c.isAlphanum || c == '-'
  namesSource text place && !owner.isEmpty && behind[owner.length]? == some '/' &&
    (behind.drop (owner.length + 1)).head?.any isNameChar

/-- A source outside the registry without the name of a protocol. -/
def unnamedAt (text : List Char) (place : Nat) : Bool :=
  scpLikeAt text place || shorthandAt text place

example : scpLikeAt "\"foo@git@github.com:123team/repo.git\"".toList 8 = true := by decide

example : (List.range 72).all (fun place => !unnamedAt
    "foo@npm:^1.0.0:\n  resolved \"https://user:pw@npm.internal:8443/@a/foo\"".toList place) := by
  decide

/-- A source outside the registry stands at this place. -/
def OutsideAt (library : StandardLibrary) (lockfile : List Char) (place : Nat) : Prop :=
  NamedAt library ("gist:" :: nonRegistryNames) lockfile place ∨ unnamedAt lockfile place = true

/-- Nothing but a refusal is raised, and a plan has no public registry, no URL of one in its
lockfile and no other source there. -/
structure Upheld (library : StandardLibrary) (tables : UrlTables)
    (registryUrl : Option (List Char)) (lockfile : List Char) : Prop where
  raises : planModuleBuild library tables registryUrl lockfile ≠ .error .valueError
  registry : ∀ plan, planModuleBuild library tables registryUrl lockfile = .ok plan →
    IsEmpty (PublicUrl (strip (registryUrl.getD [])))
  urls : ∀ plan, planModuleBuild library tables registryUrl lockfile = .ok plan →
    ∀ place, IsEmpty (PublicUrl (lockfile.drop place))
  sources : ∀ plan, planModuleBuild library tables registryUrl lockfile = .ok plan →
    ∀ place, ¬ OutsideAt library lockfile place

/-! ## What is missed -/

/-- A trailing dot, or a character behind the host at which the splitter does not end it. -/
def PublicUrl.Overlooked {text : List Char} (url : PublicUrl text) : Prop :=
  url.name.dotted = true ∨ ∃ c ∈ url.rest.head?, isOneOf "/?#" c = false

/-- In a lockfile: such a URL, unless the match ends there; one whose match ends in its user-info;
or one inside the match of another. -/
def PublicUrl.Missed {lockfile : List Char} {place : Nat}
    (url : PublicUrl (lockfile.drop place)) : Prop :=
  url.name.dotted = true ∨ (∃ c ∈ url.rest.head?, isOneOf "/?#" c = false ∧ isCut c = false) ∨
    (∃ c ∈ url.name.user, isCut c = true) ∨
    ∃ found ∈ lockfileUrls lockfile, found.1 < place ∧ place < found.1 + found.2.length

/-- Something that the checks miss is there. -/
def Misses (library : StandardLibrary) (registry lockfile : List Char) : Prop :=
  (∃ url : PublicUrl registry, url.Overlooked) ∨
    (∃ place, ∃ url : PublicUrl (lockfile.drop place), url.Missed) ∨
    ∃ place, NamedAt library ["gist:"] lockfile place ∨ unnamedAt lockfile place = true

section Condition

variable (library : StandardLibrary) (tables : UrlTables)

/-- The URL is split, and its host is not public. -/
def Private (url : List Char) : Prop :=
  ∃ parts, urlsplit tables url = some parts ∧ isPublic parts.hostname = false

/-- The registry is an absolute URL with a host that is not public. -/
def Registry (registry : List Char) : Prop :=
  ∃ parts, urlsplit tables registry = some parts ∧
    parts.scheme ∈ ["http".toList, "https".toList] ∧ parts.hostname ≠ none ∧
    isPublic parts.hostname = false

/-- The registry cannot be split, or the first URL that is public or cannot be split. -/
def Unsplit (registry lockfile : List Char) : Prop :=
  registry ≠ [] ∧ (urlsplit tables registry = none ∨
    (Registry tables registry ∧ lockfileNonRegistry.search library lockfile = false ∧
      ∃ before url after, (lockfileUrls lockfile).map Prod.snd = before ++ url :: after ∧
        (∀ one ∈ before, Private tables one) ∧ urlsplit tables url = none))

/-- Nothing that the checks look for is there. -/
structure Clean (registry lockfile : List Char) : Prop where
  registry : Registry tables registry
  sources : lockfileNonRegistry.search library lockfile = false
  urls : ∀ url ∈ (lockfileUrls lockfile).map Prod.snd, Private tables url

theorem rejectPublicUrls_ok {urls : List (List Char)} :
    rejectPublicUrls tables urls = .ok () ↔ ∀ url ∈ urls, Private tables url := by
  induction urls with
  | nil => simp [rejectPublicUrls]
  | cons url rest ih =>
    rw [rejectPublicUrls, split, List.forall_mem_cons, ← ih, Private]
    cases urlsplit tables url with
    | none => exact ⟨nofun, fun all => by simp at all⟩
    | some parts =>
      simp only [orFault_some, ok_bind, Option.some.injEq, exists_eq_left']
      cases isPublic parts.hostname <;> simp

theorem rejectPublicUrls_raises {urls : List (List Char)} :
    rejectPublicUrls tables urls = .error .valueError ↔
      ∃ before url after, urls = before ++ url :: after ∧
        (∀ one ∈ before, Private tables one) ∧ urlsplit tables url = none := by
  induction urls with
  | nil => simp [rejectPublicUrls]
  | cons url rest ih =>
    rw [rejectPublicUrls, split]
    cases found : urlsplit tables url with
    | none => exact iff_of_true rfl ⟨[], url, rest, rfl, nofun, found⟩
    | some parts =>
      simp only [orFault_some, ok_bind]
      cases hidden : isPublic parts.hostname with
      | true =>
        -- the first public URL is refused, whatever comes behind it
        refine iff_of_false (by simp) ?_
        rintro ⟨before, other, after, same, plain, none⟩
        cases before with
        | nil =>
          obtain ⟨rfl, -⟩ := List.cons.inj same
          rw [found] at none
          cases none
        | cons first before =>
          obtain ⟨rfl, -⟩ := List.cons.inj same
          obtain ⟨again, split, plain⟩ := plain _ List.mem_cons_self
          obtain rfl := Option.some.inj (found.symm.trans split)
          rw [hidden] at plain
          cases plain
      | false =>
        simp only [Bool.false_eq_true, if_false]
        rw [ih]
        constructor
        · rintro ⟨before, other, after, rfl, plain, none⟩
          exact ⟨url :: before, other, after, rfl,
            List.forall_mem_cons.mpr ⟨⟨parts, found, hidden⟩, plain⟩, none⟩
        · rintro ⟨before, other, after, same, plain, none⟩
          cases before with
          | nil =>
            obtain ⟨rfl, -⟩ := List.cons.inj same
            rw [found] at none
            cases none
          | cons first before =>
            obtain ⟨-, rest⟩ := List.cons.inj same
            exact ⟨before, other, after, rest, (List.forall_mem_cons.mp plain).2, none⟩

variable {library tables} {registryUrl : Option (List Char)} {lockfile : List Char}

theorem Registry.ne_nil {registry : List Char} (fine : Registry tables registry) :
    registry ≠ [] := by
  rintro rfl
  obtain ⟨parts, found, scheme, -⟩ := fine
  obtain rfl := Option.some.inj found.symm
  revert scheme
  decide

theorem planModuleBuild_eq (fine : Registry tables (strip (registryUrl.getD []))) :
    planModuleBuild library tables registryUrl lockfile =
      (rejectPublicLockfileSources library tables lockfile).map
        fun _ => strip (registryUrl.getD []) := by
  have filled := fine.ne_nil
  obtain ⟨parts, found, scheme, host, hidden⟩ := fine
  rw [planModuleBuild, if_neg filled, split, found]
  simp only [orFault_some, ok_bind]
  have listed : ¬ (!true) = true := Bool.false_ne_true
  rw [List.contains_iff_mem.mpr scheme, if_neg (not_or.mpr ⟨listed, host⟩), hidden]
  cases rejectPublicLockfileSources library tables lockfile <;> rfl

theorem planModuleBuild_unfit (unfit : ¬ Registry tables (strip (registryUrl.getD []))) :
    ∃ fault, planModuleBuild library tables registryUrl lockfile = .error fault ∧
      (fault = .valueError ↔ strip (registryUrl.getD []) ≠ [] ∧
        urlsplit tables (strip (registryUrl.getD [])) = none) := by
  by_cases empty : strip (registryUrl.getD []) = []
  · exact ⟨_, by rw [planModuleBuild, if_pos empty], by simp [empty]⟩
  · rw [planModuleBuild, if_neg empty, split]
    cases found : urlsplit tables (strip (registryUrl.getD [])) with
    | none => exact ⟨.valueError, rfl, by simp [empty]⟩
    | some parts =>
      simp only [orFault_some, ok_bind]
      split_ifs with absolute hidden
      · exact ⟨_, rfl, by simp⟩
      · exact ⟨_, rfl, by simp⟩
      · obtain ⟨scheme, host⟩ := not_or.mp absolute
        rw [Bool.not_eq_true', Bool.not_eq_false] at scheme
        exact absurd ⟨parts, found, List.contains_iff_mem.mp scheme, host,
          Bool.eq_false_of_not_eq_true hidden⟩ unfit

theorem planModuleBuild_ok {plan : List Char} :
    planModuleBuild library tables registryUrl lockfile = .ok plan ↔
      strip (registryUrl.getD []) = plan ∧
        Clean library tables (strip (registryUrl.getD [])) lockfile := by
  by_cases fine : Registry tables (strip (registryUrl.getD []))
  · have urls : rejectPublicUrls tables ((lockfileUrls lockfile).map Prod.snd) = .ok () ↔ _ :=
      rejectPublicUrls_ok tables
    rw [planModuleBuild_eq fine, rejectPublicLockfileSources]
    cases sources : lockfileNonRegistry.search library lockfile with
    | true =>
      refine iff_of_false nofun fun clean => ?_
      have none := clean.2.sources
      rw [sources] at none
      cases none
    | false =>
      simp only [Bool.false_eq_true, if_false]
      constructor
      · intro made
        cases checked : rejectPublicUrls tables ((lockfileUrls lockfile).map Prod.snd) with
        | error fault =>
          rw [checked] at made
          cases made
        | ok _ =>
          rw [checked] at made
          cases made
          exact ⟨rfl, fine, sources, urls.mp checked⟩
      · rintro ⟨rfl, clean⟩
        rw [urls.mpr clean.urls]
        rfl
  · obtain ⟨fault, raised, -⟩ : ∃ fault, planModuleBuild library tables registryUrl lockfile =
        .error fault ∧ _ := planModuleBuild_unfit fine
    rw [raised]
    exact iff_of_false nofun fun clean => fine clean.2.registry

theorem planModuleBuild_raises :
    planModuleBuild library tables registryUrl lockfile = .error .valueError ↔
      Unsplit library tables (strip (registryUrl.getD [])) lockfile := by
  by_cases fine : Registry tables (strip (registryUrl.getD []))
  · have urls : rejectPublicUrls tables ((lockfileUrls lockfile).map Prod.snd) =
        .error .valueError ↔ _ := rejectPublicUrls_raises tables
    have split : urlsplit tables (strip (registryUrl.getD [])) ≠ none := by
      obtain ⟨parts, found, -⟩ := fine
      rw [found]
      exact nofun
    rw [planModuleBuild_eq fine, rejectPublicLockfileSources, Unsplit, ← urls]
    cases sources : lockfileNonRegistry.search library lockfile with
    | true => simp [Except.map, split]
    | false =>
      simp only [Bool.false_eq_true, if_false, fine.ne_nil, ne_eq, not_false_eq_true, true_and,
        split, false_or, fine]
      cases rejectPublicUrls tables ((lockfileUrls lockfile).map Prod.snd) <;> simp [Except.map]
  · obtain ⟨fault, raised, value⟩ : ∃ fault, planModuleBuild library tables registryUrl lockfile =
        .error fault ∧ _ := planModuleBuild_unfit fine
    rw [raised, Unsplit]
    simp [value, fine]

end Condition

/-! ## The host of a URL -/

variable {c : Char}

theorem exists_ascii (ascii : c.toNat < 128) : ∃ n : Fin 128, c = Char.ofNat n :=
  ⟨⟨c.toNat, ascii⟩, (Char.ofNat_toNat c).symm⟩

theorem ascii_of_alphanum (sound : c.isAlphanum = true) : c.toNat < 128 := by
  have classes : c.isAlphanum = (decide ('A'.val ≤ c.val ∧ c.val ≤ 'Z'.val) ||
      decide ('a'.val ≤ c.val) && decide (c.val ≤ 'z'.val) ||
      decide ('0'.val ≤ c.val) && decide (c.val ≤ '9'.val)) := rfl
  simp only [classes, Bool.or_eq_true, Bool.and_eq_true, decide_eq_true_eq,
    UInt32.le_iff_toNat_le] at sound
  have lastUpper : 'Z'.val.toNat = 90 := rfl
  have lastLower : 'z'.val.toNat = 122 := rfl
  have lastDigit : '9'.val.toNat = 57 := rfl
  change c.val.toNat < 128
  omega

/-- A character of a host: a letter or a dot. -/
def isLabel (c : Char) : Bool := c.isAlpha || c == '.'

theorem isLabel_ascii (label : isLabel c = true) : c.toNat < 128 := by
  rcases Bool.or_eq_true_iff.mp label with letter | dot
  · exact ascii_of_alphanum (Bool.or_eq_true_iff.mpr (.inl letter))
  · rw [eq_of_beq dot]
    decide

theorem toLower_of_not_upper (upper : ¬ c.isUpper = true) : c.toLower = c :=
  dif_neg fun inside => upper (decide_eq_true inside)

theorem isLabel_of_toLower (low : c.toLower.isLower = true ∨ c.toLower = '.') :
    isLabel c = true := by
  by_cases upper : c.isUpper = true
  · exact Bool.or_eq_true_iff.mpr (.inl (Bool.or_eq_true_iff.mpr (.inl upper)))
  · rw [toLower_of_not_upper upper] at low
    rcases low with lower | dot
    · exact Bool.or_eq_true_iff.mpr (.inl (Bool.or_eq_true_iff.mpr (.inr lower)))
    · rw [dot]
      rfl

theorem labels_of_toLower {text name : List Char} (same : text.map Char.toLower = name)
    (low : (name.all fun c => c.isLower || c == '.') = true) : ∀ c ∈ text, isLabel c = true := by
  intro c mem
  have lower := List.all_eq_true.mp low _ (same ▸ List.mem_map_of_mem mem)
  exact isLabel_of_toLower ((Bool.or_eq_true_iff.mp lower).imp_right eq_of_beq)

/-- Nothing in it ends a network location or is removed from a URL. -/
def isPlain (c : Char) : Bool := decide (c.toNat < 128) && !isOneOf "/?#[]\t\r\n" c

theorem ascii_classes (ascii : c.toNat < 128) :
    (isLabel c = true → isPlain c = true ∧ (isCut c = false ∧ c ≠ ':' ∧ c ≠ '@' ∧ c ≠ '%') ∧
      lowered c = [c.toLower] ∧ ¬ c.toNat ≤ 0x20 ∧ (c.isAlphanum || isOneOf "+-." c) = true) ∧
    (c = ':' ∨ c.isDigit = true → isPlain c = true ∧ c ≠ '@' ∧ isCut c = false) ∧
    (c.isAlphanum = true ∨ isOneOf "-._~%!$&'()*+,;=:" c = true → isPlain c = true) ∧
    foldCase c = c.toLower := by
  obtain ⟨n, rfl⟩ := exists_ascii ascii
  clear ascii
  revert n
  decide +kernel

theorem label_plain (label : isLabel c = true) : isPlain c = true :=
  ((ascii_classes (isLabel_ascii label)).1 label).1

theorem label_uncut (label : isLabel c = true) :
    isCut c = false ∧ c ≠ ':' ∧ c ≠ '@' ∧ c ≠ '%' :=
  ((ascii_classes (isLabel_ascii label)).1 label).2.1

theorem label_lowered (label : isLabel c = true) :
    lowered c = [c.toLower] ∧ foldCase c = c.toLower :=
  have classes := ascii_classes (isLabel_ascii label)
  ⟨(classes.1 label).2.2.1, classes.2.2.2⟩

theorem label_scheme (label : isLabel c = true) :
    ¬ c.toNat ≤ 0x20 ∧ (c.isAlphanum || isOneOf "+-." c) = true :=
  ((ascii_classes (isLabel_ascii label)).1 label).2.2.2

/-- The scheme of an `http` or `https` URL has letters only. -/
theorem scheme_letters {scheme : List Char}
    (isHttp : scheme.map Char.toLower ∈ ["http".toList, "https".toList]) :
    (∀ c ∈ scheme, isLabel c = true) ∧ ∀ c ∈ scheme, c.isAlpha = true := by
  have low : ∀ one ∈ ["http".toList, "https".toList], one.contains '.' = false ∧
      (one.all fun c => c.isLower || c == '.') = true := by
    decide
  have labels := labels_of_toLower rfl (low _ isHttp).2
  refine ⟨labels, fun c mem => ?_⟩
  rcases Bool.or_eq_true_iff.mp (labels c mem) with letter | dot
  · exact letter
  · rw [eq_of_beq dot] at mem
    have dotted := List.contains_iff_mem.mpr (List.mem_map_of_mem (f := Char.toLower) mem)
    exact absurd dotted (Bool.eq_false_iff.mp (low _ isHttp).1)

theorem isOneOf_of_plain {chars : String} (others : (chars.toList.all fun d => !isPlain d) = true)
    (plain : isPlain c = true) : isOneOf chars c = false := by
  refine Bool.eq_false_iff.mpr fun mark => ?_
  have other := List.all_eq_true.mp others c (List.contains_iff_mem.mp mark)
  rw [plain] at other
  cases other

theorem port_plain (port : c = ':' ∨ c.isDigit = true) :
    isPlain c = true ∧ c ≠ '@' ∧ isCut c = false := by
  have ascii : c.toNat < 128 := by
    rcases port with rfl | digit
    · decide
    · exact ascii_of_alphanum (Bool.or_eq_true_iff.mpr (.inr digit))
  exact (ascii_classes ascii).2.1 port

theorem user_plain
    (user : c.isAlphanum = true ∨ isOneOf "-._~%!$&'()*+,;=:" c = true) : isPlain c = true := by
  have ascii : c.toNat < 128 := by
    rcases user with sound | mark
    · exact ascii_of_alphanum sound
    · have all : ("-._~%!$&'()*+,;=:".toList.all fun d => decide (d.toNat < 128)) = true := by
        decide
      exact of_decide_eq_true (List.all_eq_true.mp all c (List.contains_iff_mem.mp mark))
  exact (ascii_classes ascii).2.2.1 user

theorem rtakeWhile_append {p : Char → Bool} {front tail : List Char}
    (all : ∀ c ∈ tail, p c = true) : (front ++ tail).rtakeWhile p = front.rtakeWhile p ++ tail := by
  rw [List.rtakeWhile, List.reverse_append, List.takeWhile_append_of_pos (by simpa using all),
    List.reverse_append, List.reverse_reverse, List.rtakeWhile]

theorem registry_hosts : ∀ one ∈ publicRegistryHosts,
    (one.toList.all fun c => c.isLower || c == '.') = true ∧ one.toList ≠ [] ∧
      isPublic (some one.toList) = true := by
  decide

namespace PublicName

variable (name : PublicName)

theorem host_labels : ∀ c ∈ name.host, isLabel c = true := by
  obtain ⟨host, listed, same⟩ := name.host_form
  exact labels_of_toLower same (registry_hosts host listed).1

theorem port_marks : ∀ c ∈ name.port, c = ':' ∨ c.isDigit = true := by
  rcases name.port_form with empty | ⟨digits, same, all⟩
  · rw [empty]
    exact nofun
  · rw [same]
    exact List.forall_mem_cons.mpr ⟨.inl rfl, fun d mem => .inr (all d mem)⟩

theorem text_plain : ∀ c ∈ name.text, isPlain c = true := by
  intro c mem
  simp only [text, List.mem_append] at mem
  rcases mem with user | host | dot | port
  · rcases name.user_form with empty | ⟨info, same, all⟩
    · rw [empty] at user
      cases user
    · rw [same, List.mem_append, List.mem_singleton] at user
      rcases user with inside | rfl
      · exact user_plain (all c inside)
      · decide
  · exact label_plain (name.host_labels c host)
  · split_ifs at dot
    · rw [List.mem_singleton.mp dot]
      decide
    · cases dot
  · exact (port_plain (name.port_marks c port)).1

theorem hostinfo_text (plain : name.dotted = false) : hostinfo name.text = name.host := by
  have behind : ∀ c ∈ name.host ++ name.port, (c != '@') = true := by
    intro c mem
    rcases List.mem_append.mp mem with host | port
    · exact bne_iff_ne.mpr (label_uncut (name.host_labels c host)).2.2.1
    · exact bne_iff_ne.mpr (port_plain (name.port_marks c port)).2.1
  have front : name.user.rtakeWhile (fun c => c != '@') = [] := by
    rcases name.user_form with empty | ⟨info, same, -⟩
    · rw [empty, List.rtakeWhile_nil]
    · rw [same, List.rtakeWhile_concat_neg _ _ _ (by decide)]
  have info : name.text.rtakeWhile (fun c => c != '@') = name.host ++ name.port := by
    rw [text, plain, if_neg Bool.false_ne_true, List.nil_append, rtakeWhile_append behind, front,
      List.nil_append]
  have unbracketed : (name.host ++ name.port).contains '[' = false := by
    refine Bool.eq_false_iff.mpr fun bracket => ?_
    have mem : '[' ∈ name.text := by
      rw [text, plain, if_neg Bool.false_ne_true, List.nil_append]
      exact List.mem_append_right _ (List.contains_iff_mem.mp bracket)
    exact absurd (name.text_plain _ mem) (by decide)
  rw [hostinfo, info]
  simp only [unbracketed, Bool.false_eq_true, if_false]
  rw [List.takeWhile_append_of_pos fun c mem =>
    bne_iff_ne.mpr (label_uncut (name.host_labels c mem)).2.1]
  rcases name.port_form with empty | ⟨digits, same, -⟩
  · rw [empty, List.takeWhile_nil, List.append_nil]
  · rw [same, List.takeWhile_cons_of_neg (by decide), List.append_nil]

theorem host_ne_nil : name.host ≠ [] := by
  obtain ⟨host, listed, same⟩ := name.host_form
  intro empty
  rw [empty] at same
  exact (registry_hosts host listed).2.1 same.symm

theorem text_ne_nil : name.text ≠ [] :=
  List.append_ne_nil_of_right_ne_nil _ (List.append_ne_nil_of_left_ne_nil name.host_ne_nil _)

theorem hostname_text (plain : name.dotted = false) : isPublic (hostname name.text) = true := by
  obtain ⟨host, listed, same⟩ := name.host_form
  have labels := name.host_labels
  have lower : name.host.flatMap lowered = host.toList := by
    rw [← same, ← List.flatMap_singleton' (name.host.map _), List.flatMap_map]
    exact List.flatMap_congr fun c mem => (label_lowered (labels c mem)).1
  rw [hostname, hostinfo_text name plain]
  have whole : name.host.takeWhile (fun c => c != '%') = name.host :=
    List.takeWhile_eq_self_iff.mpr fun c mem => bne_iff_ne.mpr (label_uncut (labels c mem)).2.2.2
  have none : name.host.dropWhile (fun c => c != '%') = [] :=
    List.dropWhile_eq_nil_iff.mpr fun c mem => bne_iff_ne.mpr (label_uncut (labels c mem)).2.2.2
  split
  · exact absurd ‹_› name.host_ne_nil
  · rw [whole, none, List.append_nil, lower]
    exact (registry_hosts host listed).2.2

end PublicName

theorem urlsplit_public (tables : UrlTables) {scheme rest : List Char} {name : PublicName}
    (isHttp : scheme.map Char.toLower ∈ ["http".toList, "https".toList])
    (plain : name.dotted = false) (ends : ∀ c ∈ rest.head?, isOneOf "/?#" c = true) :
    ∃ parts, urlsplit tables (scheme ++ ("://".toList ++ (name.text ++ rest))) = some parts ∧
      isPublic parts.hostname = true := by
  obtain ⟨labels, letters⟩ := scheme_letters isHttp
  obtain ⟨first, others, rfl⟩ : ∃ first others, scheme = first :: others := by
    cases scheme with
    | nil => exact absurd isHttp (by decide)
    | cons first others => exact ⟨first, others, rfl⟩
  have kept {text : List Char} (all : ∀ c ∈ text, isPlain c = true) :
      text.filter (fun c => !isOneOf "\t\r\n" c) = text :=
    List.filter_eq_self.mpr fun c mem => by
      rw [isOneOf_of_plain (by decide) (all c mem)]
      rfl
  obtain ⟨rest', clean, ends'⟩ : ∃ rest',
      sanitized (first :: others ++ ("://".toList ++ (name.text ++ rest))) =
        first :: others ++ ("://".toList ++ (name.text ++ rest')) ∧
        ∀ c ∈ rest'.head?, isOneOf "/?#" c = true := by
    refine ⟨rest.filter fun c => !isOneOf "\t\r\n" c, ?_, ?_⟩
    · rw [sanitized, List.cons_append, List.dropWhile_cons_of_neg
        (by simpa using (label_scheme (labels first List.mem_cons_self)).1),
        ← List.cons_append, List.filter_append, List.filter_append, List.filter_append,
        kept fun c mem => label_plain (labels c mem), kept name.text_plain]
      rfl
    · cases rest with
      | nil => exact nofun
      | cons c rest =>
        have mark := ends c rfl
        have others : ("/?#".toList.all fun d => !isOneOf "\t\r\n" d) = true := by decide
        have stays := List.all_eq_true.mp others c (List.contains_iff_mem.mp mark)
        rw [List.filter_cons_of_pos (p := fun d => !isOneOf "\t\r\n" d) stays]
        exact ends
  have split : splitScheme (first :: others ++ ("://".toList ++ (name.text ++ rest'))) =
      ((first :: others).map Char.toLower, "//".toList ++ (name.text ++ rest')) := by
    have before : (first :: others ++ ("://".toList ++ (name.text ++ rest'))).takeWhile
        (fun c => c != ':') = first :: others := by
      rw [List.takeWhile_append_of_pos fun c mem => bne_iff_ne.mpr (label_uncut (labels c mem)).2.1]
      exact List.append_nil _
    rw [splitScheme, before]
    simp only [List.drop_left]
    have sound : ((first :: others).head?.any Char.isAlpha &&
        (first :: others).all fun c => c.isAlphanum || isOneOf "+-." c) = true :=
      Bool.and_eq_true_iff.mpr ⟨letters first List.mem_cons_self,
        List.all_eq_true.mpr fun c mem => (label_scheme (labels c mem)).2⟩
    exact if_pos sound
  have netloc : splitNetloc ("//".toList ++ (name.text ++ rest')) = name.text := by
    change (name.text ++ rest').takeWhile (fun c => !isOneOf "/?#" c) = name.text
    rw [List.takeWhile_append_of_pos fun c mem => by
      rw [isOneOf_of_plain (by decide) (name.text_plain c mem)]
      rfl]
    cases rest' with
    | nil => exact List.append_nil _
    | cons c rest' =>
      rw [List.takeWhile_cons_of_neg (by rw [ends' c rfl]; decide), List.append_nil]
  have ascii : checkNetloc tables name.text = true := by
    have all : name.text.all (fun c => decide (c.toNat < 128)) = true :=
      List.all_eq_true.mpr fun c mem => (Bool.and_eq_true_iff.mp (name.text_plain c mem)).1
    rw [checkNetloc, all]
    rfl
  have without (c : Char) (bad : isPlain c = false) : name.text.contains c = false := by
    refine Bool.eq_false_iff.mpr fun inside => ?_
    rw [name.text_plain c (List.contains_iff_mem.mp inside)] at bad
    cases bad
  refine ⟨⟨(first :: others).map Char.toLower, hostname name.text⟩, ?_, name.hostname_text plain⟩
  rw [urlsplit, clean]
  simp only [split, netloc, ascii, without '[' (by decide), without ']' (by decide)]
  rfl

theorem urlsFrom_covers {text url : List Char} {place start skipped : Nat}
    (here : urlAt (text.drop place) = some url) :
    place < skipped ∨ (start + place, url) ∈ urlsFrom start skipped text ∨
      ∃ found ∈ urlsFrom start skipped text, found.1 < start + place ∧
        start + place < found.1 + found.2.length := by
  induction text generalizing place start skipped with
  | nil =>
    rw [List.drop_nil] at here
    cases here
  | cons c rest ih =>
    cases place with
    | zero =>
      cases skipped with
      | zero =>
        rw [List.drop_zero] at here
        rw [urlsFrom, here]
        exact .inr (.inl List.mem_cons_self)
      | succ skipped => exact .inl (Nat.succ_pos skipped)
    | succ place =>
      rw [List.drop_succ_cons] at here
      rw [show start + (place + 1) = start + 1 + place by omega]
      cases skipped with
      | succ skipped =>
        rw [urlsFrom]
        exact (ih here).imp_left Nat.succ_lt_succ
      | zero =>
        rw [urlsFrom]
        cases first : urlAt (c :: rest) with
        | none => exact .inr ((ih here).resolve_left (Nat.not_lt_zero _))
        | some url' =>
          refine .inr ?_
          -- behind the match the scan goes on at its end; before that, the place is inside it
          have later : place < url'.length - 1 ∨ (start + 1 + place, url) ∈ _ ∨ _ := ih here
          rcases later with inside | found | ⟨found, mem, inside⟩
          · exact .inr ⟨(start, url'), List.mem_cons_self, by dsimp only; omega, by
              change start + 1 + place < start + url'.length
              omega⟩
          · exact .inl (List.mem_cons_of_mem _ found)
          · exact .inr ⟨found, List.mem_cons_of_mem _ mem, inside⟩

theorem urlAt_public {scheme rest : List Char} {name : PublicName}
    (isHttp : scheme.map Char.toLower ∈ ["http".toList, "https".toList])
    (plain : name.dotted = false) (uncut : ∀ c ∈ name.user, isCut c = false) :
    urlAt (scheme ++ ("://".toList ++ (name.text ++ rest))) =
      some (scheme ++ ("://".toList ++ (name.text ++ rest.takeWhile fun c => !isCut c))) := by
  have same : scheme.map foldCase = scheme.map Char.toLower :=
    List.map_congr_left fun c mem => (label_lowered ((scheme_letters isHttp).1 c mem)).2
  have whole : ∀ c ∈ name.text, (!isCut c) = true := by
    intro c mem
    simp only [PublicName.text, plain, Bool.false_eq_true, if_false, List.nil_append,
      List.mem_append] at mem
    rcases mem with user | host | port
    · rw [uncut c user]
      rfl
    · rw [(label_uncut (name.host_labels c host)).1]
      rfl
    · rw [(port_plain (name.port_marks c port)).2.2]
      rfl
  have run : ∀ {head : List Char} {size : Nat}, head.length = size →
      ((head ++ (name.text ++ rest)).drop size).takeWhile (fun c => !isCut c) =
        name.text ++ rest.takeWhile fun c => !isCut c := by
    rintro head size rfl
    rw [List.drop_left, List.takeWhile_append_of_pos whole]
  have taken : ∀ {head : List Char} {size : Nat}, head.length = size →
      (head ++ (name.text ++ rest)).take size = head := by
    rintro head size rfl
    exact List.take_left
  have filled : name.text ++ rest.takeWhile (fun c => !isCut c) ≠ [] :=
    List.append_ne_nil_of_left_ne_nil name.text_ne_nil _
  rw [List.mem_cons, List.mem_singleton] at isHttp
  have front : ∀ tail : List Char, scheme ++ ("://".toList ++ (name.text ++ tail)) =
      scheme ++ "://".toList ++ (name.text ++ tail) := fun tail => (List.append_assoc _ _ _).symm
  rw [front, front]
  rcases isHttp with http | https
  · have length : (scheme ++ "://".toList).length = 7 := by
      rw [List.length_append, ← List.length_map (f := Char.toLower), http]
      rfl
    have begins : ((scheme ++ "://".toList ++ (name.text ++ rest)).take 7).map foldCase =
        "http://".toList := by
      rw [taken length, List.map_append, same, http]
      decide
    rw [urlAt, if_pos begins]
    simp only [run length, taken length]
    rw [if_neg (by simp [filled])]
  · -- seven characters of an `https` URL are no `http://`
    have length : (scheme ++ "://".toList).length = 8 := by
      rw [List.length_append, ← List.length_map (f := Char.toLower), https]
      rfl
    have longer : ((scheme ++ "://".toList ++ (name.text ++ rest)).take 7).map foldCase ≠
        "http://".toList := by
      have less : (scheme ++ ":/".toList).length = 7 := by
        rw [List.length_append, ← List.length_map (f := Char.toLower), https]
        rfl
      have parts : scheme ++ "://".toList ++ (name.text ++ rest) =
          scheme ++ ":/".toList ++ ('/' :: (name.text ++ rest)) := by
        rw [List.append_assoc, List.append_assoc]
        rfl
      rw [parts, ← less, List.take_left, List.map_append, same, https]
      decide
    have begins : ((scheme ++ "://".toList ++ (name.text ++ rest)).take 8).map foldCase =
        "https://".toList := by
      rw [taken length, List.map_append, same, https]
      decide
    rw [urlAt, if_neg longer, if_pos begins]
    simp only [run length, taken length]
    rw [if_neg (by simp [filled])]

theorem foldCase_of_toLower (low : c.toLower.toNat < 128) : foldCase c = c.toLower := by
  have ascii : c.toNat < 128 := by
    by_cases upper : c.isUpper = true
    · have letter : c.isAlpha = true := Bool.or_eq_true_iff.mpr (.inl upper)
      exact ascii_of_alphanum (Bool.or_eq_true_iff.mpr (.inl letter))
    · rwa [toLower_of_not_upper upper] at low
  exact (ascii_classes ascii).2.2.2

theorem matchPieces_folded {word : Char → Bool} {name : List Char}
    (ascii : ∀ c ∈ name, c.toNat < 128) {previous : Option Char} {text : List Char}
    (same : (text.take name.length).map Char.toLower = name) :
    matchPieces word (name.map fun c => .charOf fun d => foldCase d == c) previous text = true := by
  induction name generalizing previous text with
  | nil => rfl
  | cons c name ih =>
    cases text with
    | nil => cases same
    | cons d text =>
      obtain ⟨rfl, behind⟩ := List.cons.inj same
      rw [List.map_cons, matchPieces, foldCase_of_toLower (ascii _ List.mem_cons_self),
        ih (fun c mem => ascii c (List.mem_cons_of_mem _ mem)) behind, beq_self_eq_true]
      rfl

theorem search_of_named {library : StandardLibrary} {lockfile : List Char} {place : Nat}
    (named : NamedAt library nonRegistryNames lockfile place) :
    lockfileNonRegistry.search library lockfile = true := by
  obtain ⟨name, listed, same, boundary⟩ := named
  have forms : ∀ one ∈ nonRegistryNames,
      (one.toList.all fun c => decide (c.toNat < 128)) = true ∧ one.toList ≠ [] := by
    decide
  obtain ⟨ascii, filled⟩ := forms name listed
  replace ascii : ∀ c ∈ name.toList, c.toNat < 128 := fun c mem =>
    of_decide_eq_true (List.all_eq_true.mp ascii c mem)
  have inside : place < lockfile.length := by
    by_contra beyond
    rw [List.drop_eq_nil_of_le (Nat.not_lt.mp beyond), List.take_nil] at same
    exact filled same.symm
  refine List.any_eq_true.mpr ⟨place, List.mem_range.mpr (by omega), ?_⟩
  refine List.any_eq_true.mpr ⟨.boundary :: folded name, List.mem_map_of_mem listed, ?_⟩
  rw [matchPieces, boundary, folded, matchPieces_folded ascii same]
  rfl

variable {library : StandardLibrary} {tables : UrlTables} {registryUrl : Option (List Char)}
  {lockfile : List Char}

theorem ends_takeWhile {rest : List Char}
    (ends : ¬ ∃ c ∈ rest.head?, isOneOf "/?#" c = false ∧ isCut c = false) :
    ∀ c ∈ (rest.takeWhile fun c => !isCut c).head?, isOneOf "/?#" c = true := by
  cases rest with
  | nil => exact nofun
  | cons c rest =>
    rw [List.takeWhile_cons]
    cases cut : isCut c with
    | true => exact nofun
    | false =>
      intro d head
      obtain rfl : c = d := by simpa using head
      by_contra other
      exact ends ⟨c, rfl, Bool.eq_false_of_not_eq_true other, cut⟩

theorem missed_of_clean {registry : List Char} (clean : Clean library tables registry lockfile)
    (bad : Nonempty (PublicUrl registry) ∨ (∃ place, Nonempty (PublicUrl (lockfile.drop place))) ∨
      ∃ place, OutsideAt library lockfile place) : Misses library registry lockfile := by
  rcases bad with first | ⟨place, ⟨url⟩⟩ | ⟨place, named | unnamed⟩
  · obtain ⟨url⟩ := first
    refine .inl ⟨url, ?_⟩
    by_contra met
    obtain ⟨plain, ends⟩ := not_or.mp met
    obtain ⟨parts, found, shown⟩ := urlsplit_public tables url.scheme_form
      (Bool.eq_false_of_not_eq_true plain)
      (fun c head => by simpa using fun mark => ends ⟨c, head, mark⟩)
    obtain ⟨others, split, -, -, hidden⟩ := clean.registry
    rw [url.text_eq, found] at split
    obtain rfl := Option.some.inj split
    rw [shown] at hidden
    cases hidden
  · refine .inr (.inl ⟨place, url, ?_⟩)
    by_contra met
    obtain ⟨plain, ends, uncut, outside⟩ : ¬ url.name.dotted = true ∧ _ ∧ _ ∧ _ := by
      rwa [PublicUrl.Missed, not_or, not_or, not_or] at met
    replace plain := Bool.eq_false_of_not_eq_true plain
    have here : urlAt (lockfile.drop place) = some (url.scheme ++ ("://".toList ++
        (url.name.text ++ url.rest.takeWhile fun c => !isCut c))) :=
      (congrArg urlAt url.text_eq).trans <| urlAt_public url.scheme_form plain fun c mem =>
        Bool.eq_false_of_not_eq_true fun cut => uncut ⟨c, mem, cut⟩
    have covered : place < 0 ∨ (0 + place, _) ∈ lockfileUrls lockfile ∨ _ := urlsFrom_covers here
    rw [Nat.zero_add] at covered
    rcases covered with low | found | inside
    · exact absurd low (Nat.not_lt_zero place)
    · obtain ⟨parts, split, shown⟩ := urlsplit_public tables url.scheme_form plain
        (ends_takeWhile ends)
      obtain ⟨others, again, hidden⟩ := clean.urls _ (List.mem_map_of_mem found)
      obtain rfl := Option.some.inj (split.symm.trans again)
      rw [shown] at hidden
      cases hidden
    · exact outside inside
  · obtain ⟨name, listed, same⟩ := named
    rcases List.mem_cons.mp listed with rfl | listed
    · exact .inr (.inr ⟨place, .inl ⟨_, List.mem_singleton_self _, same⟩⟩)
    · have found := search_of_named ⟨name, listed, same⟩
      rw [clean.sources] at found
      cases found
  · exact .inr (.inr ⟨place, .inr unnamed⟩)

def sampleLibrary : StandardLibrary where
  isalnum := Char.isAlphanum
  sha256 _ := ⟨List.replicate 64 '0', zeros_length, zeros_hexadecimal⟩

/-- Tables for texts that NFKC leaves alone, without IP addresses. -/
def sampleTables : UrlTables := ⟨id, fun _ => false⟩

def dottedLockfile : List Char := "https://registry.npmjs.org./x".toList

def dottedUrl : PublicUrl dottedLockfile where
  scheme := "https".toList
  name :=
    { user := []
      host := "registry.npmjs.org".toList
      dotted := true
      port := []
      user_form := .inl rfl
      host_form := ⟨"registry.npmjs.org", List.mem_cons_self, rfl⟩
      port_form := .inl rfl }
  rest := "/x".toList
  scheme_form := List.mem_cons_of_mem _ List.mem_cons_self
  text_eq := rfl
  ends := by
    rintro c head
    rw [← Option.some.inj head]
    rfl

end SkillMind.Modules.BuildPlan
