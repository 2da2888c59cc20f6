import BitcoinPeers.Connection.UserAgent

/-!
Contract: `connection/src/user_agent.rs`, validation down to the bytes of a
string.

Owns:
- the validator with its byte slice and its indexing, which could panic;
- that it never does and agrees with the validator on characters;
- the exact strings behind each of its results.

`starts_with`, `ends_with`, `contains` and `split` look for one character each,
so they are taken on the characters; `len` and the slice count bytes.
-/

namespace BitcoinPeers.UserAgent

open BitcoinPeers.Foundation

namespace Bytes

/-- The checks on the collected parts. An index out of range would panic. -/
def checkParts (parts : List (List Char)) : Option (Except UserAgentError Unit) :=
  if parts.length ≠ 2 then some (.error .invalidFormat)
  else
    match parts[0]? with
    | none => none
    | some name =>
        if name = [] then some (.error .missingName)
        else
          match parts[1]? with
          | none => none
          | some version =>
              if version = [] then some (.error .missingVersion) else some (.ok ())

/-- `validate_bitcoin_core_format` on the bytes of a string; `none` is a panic,
of the slice, of an index or of `len() - 1`. -/
def validateBitcoinCoreFormat (userAgent : String) : Option (Except UserAgentError Unit) :=
  let text := userAgent.toList
  if text.head? ≠ some '/' ∨ text.getLast? ≠ some '/' then some (.error .invalidFormat)
  else if ':' ∉ text then some (.error .invalidFormat)
  else if userAgent.utf8ByteSize = 0 then none
  else
    match byteSlice userAgent 1 (userAgent.utf8ByteSize - 1) with
    | none => none
    | some contents => checkParts (contents.toList.splitOn ':')

/-- `UserAgent::new`; `none` is a panic. -/
def new (userAgent : String) : Option (Except UserAgentError UserAgent) :=
  match validateBitcoinCoreFormat userAgent with
  | none => none
  | some (.error error) => some (.error error)
  | some (.ok ()) => some (.ok ⟨userAgent⟩)

/-! ## No panic -/

/-- Two parts are there to be indexed. -/
theorem checkParts_eq (parts : List (List Char)) :
    checkParts parts = some (judgeParts parts) := by
  unfold checkParts judgeParts
  split
  next other =>
    split
    next => exact absurd rfl other
    next => rfl
  next two =>
    rw [not_not] at two
    obtain ⟨name, version, rfl⟩ := List.length_eq_two.mp two
    by_cases named : name = [] <;> by_cases versioned : version = [] <;>
      simp [named, versioned]

/-- Between two slashes the slice is the contents. -/
theorem byteSlice_contents (contents : String) :
    byteSlice ("/" ++ contents ++ "/") 1 (("/" ++ contents ++ "/").utf8ByteSize - 1) =
      some contents := by
  have length : ("/" ++ contents ++ "/").utf8ByteSize - 1 =
      "/".utf8ByteSize + contents.utf8ByteSize := by
    rw [String.utf8ByteSize_append, String.utf8ByteSize_append]
    rfl
  rw [length]
  exact byteSlice_middle "/" contents "/"

/-- The validator returns, and returns what the validator on characters does. -/
theorem validate_eq (userAgent : String) :
    validateBitcoinCoreFormat userAgent =
      some (BitcoinPeers.validateBitcoinCoreFormat userAgent) := by
  unfold validateBitcoinCoreFormat
  dsimp only
  split
  next slashes => rw [BitcoinPeers.validateBitcoinCoreFormat, if_pos slashes]
  next slashes =>
    split
    next colon => rw [BitcoinPeers.validateBitcoinCoreFormat, if_neg slashes, if_pos colon]
    next colon =>
      rw [not_or, not_not, not_not] at slashes
      rw [not_not] at colon
      obtain ⟨contents, enclosed⟩ :=
        exists_enclosed slashes.1 slashes.2 colon (by decide)
      have text : userAgent = "/" ++ .ofList contents ++ "/" := by
        apply String.toList_inj.mp
        rw [enclosed]
        simp
      have inside : ':' ∈ contents := by simpa [enclosed] using colon
      rw [validate_enclosed enclosed inside, ← checkParts_eq]
      subst text
      rw [byteSlice_contents]
      simp

theorem new_eq (userAgent : String) : new userAgent = some (UserAgent.new userAgent) := by
  unfold new UserAgent.new
  rw [validate_eq]
  split <;> simp_all

end Bytes

/-! ## The grammar -/

/-- `text` is `/name:version/`, with a colon in neither component. -/
def Spells (text name version : String) : Prop :=
  text = "/" ++ name ++ ":" ++ version ++ "/" ∧ ':' ∉ name.toList ∧ ':' ∉ version.toList

/-- The strings with a name and a version. -/
def WellFormed (text : String) : Prop :=
  ∃ name version, Spells text name version ∧ name ≠ "" ∧ version ≠ ""

/-- The strings `/:version/`. -/
def LacksName (text : String) : Prop :=
  ∃ version, text = "/:" ++ version ++ "/" ∧ ':' ∉ version.toList

/-- The strings `/name:/`. -/
def LacksVersion (text : String) : Prop :=
  ∃ name, text = "/" ++ name ++ ":/" ∧ name ≠ "" ∧ ':' ∉ name.toList

/-- A string spells one pair of components at most. -/
theorem Spells.unique {text name version name' version' : String}
    (spells : Spells text name version) (spells' : Spells text name' version') :
    name = name' ∧ version = version' := by
  obtain ⟨rfl, plain⟩ := spells
  obtain ⟨same, plain'⟩ := spells'
  have contents : name.toList ++ ':' :: version.toList =
      name'.toList ++ ':' :: version'.toList := by
    have texts : (bitcoinCoreFormat name version).toList =
        (bitcoinCoreFormat name' version').toList := congrArg String.toList same
    rw [toList_bitcoinCoreFormat, toList_bitcoinCoreFormat] at texts
    exact List.append_cancel_right (List.cons.inj texts).2
  obtain ⟨names, versions⟩ := parts_unique contents plain plain'
  exact ⟨String.toList_inj.mp names, String.toList_inj.mp versions⟩

theorem Spells.validate {text name version : String} (spells : Spells text name version) :
    validateBitcoinCoreFormat text =
      if name = "" then .error .missingName
      else if version = "" then .error .missingVersion
      else .ok () := by
  obtain ⟨rfl, plain⟩ := spells
  exact validate_bitcoinCoreFormat plain

theorem exists_spells {text : String}
    (formatted : validateBitcoinCoreFormat text ≠ .error .invalidFormat) :
    ∃ name version, Spells text name version := by
  obtain ⟨name, version, plain, format⟩ := exists_components formatted
  exact ⟨name, version, format, plain⟩

theorem lacksName_iff {text : String} : LacksName text ↔ ∃ version, Spells text "" version := by
  constructor
  · rintro ⟨version, rfl, plain⟩
    exact ⟨version, rfl, by simp, plain⟩
  · rintro ⟨version, rfl, -, plain⟩
    exact ⟨version, rfl, plain⟩

theorem lacksVersion_iff {text : String} :
    LacksVersion text ↔ ∃ name, Spells text name "" ∧ name ≠ "" := by
  have joined (name : String) : "/" ++ name ++ ":" ++ "" ++ "/" = "/" ++ name ++ ":/" := by
    apply String.toList_inj.mp
    simp
  constructor
  · rintro ⟨name, rfl, named, plain⟩
    exact ⟨name, ⟨(joined name).symm, plain, by simp⟩, named⟩
  · rintro ⟨name, ⟨rfl, plain, -⟩, named⟩
    exact ⟨name, joined name, named, plain⟩

theorem validate_ok_iff (text : String) :
    validateBitcoinCoreFormat text = .ok () ↔ WellFormed text := by
  constructor
  · intro valid
    obtain ⟨name, version, spells⟩ := exists_spells (by rw [valid]; exact nofun)
    rw [spells.validate] at valid
    refine ⟨name, version, spells, ?_, ?_⟩
    · rintro rfl
      cases valid
    · rintro rfl
      by_cases named : name = "" <;> simp [named] at valid
  · rintro ⟨name, version, spells, named, versioned⟩
    rw [spells.validate, if_neg named, if_neg versioned]

theorem validate_missingName_iff (text : String) :
    validateBitcoinCoreFormat text = .error .missingName ↔ LacksName text := by
  rw [lacksName_iff]
  constructor
  · intro missing
    obtain ⟨name, version, spells⟩ := exists_spells (by rw [missing]; exact nofun)
    rw [spells.validate] at missing
    by_cases named : name = ""
    · exact ⟨version, named ▸ spells⟩
    · rw [if_neg named] at missing
      split at missing <;> cases missing
  · rintro ⟨version, spells⟩
    rw [spells.validate, if_pos rfl]

theorem validate_missingVersion_iff (text : String) :
    validateBitcoinCoreFormat text = .error .missingVersion ↔ LacksVersion text := by
  rw [lacksVersion_iff]
  constructor
  · intro missing
    obtain ⟨name, version, spells⟩ := exists_spells (by rw [missing]; exact nofun)
    rw [spells.validate] at missing
    by_cases named : name = ""
    · rw [if_pos named] at missing
      cases missing
    · by_cases versioned : version = ""
      · exact ⟨name, versioned ▸ spells, named⟩
      · rw [if_neg named, if_neg versioned] at missing
        cases missing
  · rintro ⟨name, spells, named⟩
    rw [spells.validate, if_neg named, if_pos rfl]

/-- What is left is rejected for its format. -/
theorem validate_invalidFormat_iff (text : String) :
    validateBitcoinCoreFormat text = .error .invalidFormat ↔
      ¬ WellFormed text ∧ ¬ LacksName text ∧ ¬ LacksVersion text := by
  rw [← validate_ok_iff, ← validate_missingName_iff, ← validate_missingVersion_iff]
  rcases validateBitcoinCoreFormat text with (_ | _ | _) | _ <;> simp

theorem new_ok_iff {text : String} {agent : UserAgent} :
    new text = .ok agent ↔ validateBitcoinCoreFormat text = .ok () ∧ agent = ⟨text⟩ := by
  unfold new
  cases validateBitcoinCoreFormat text with
  | error error => simp
  | ok _ => simp [eq_comm]

theorem new_error_iff {text : String} {error : UserAgentError} :
    new text = .error error ↔ validateBitcoinCoreFormat text = .error error := by
  unfold new
  cases validateBitcoinCoreFormat text with
  | error other => simp
  | ok _ => simp

/-- `UserAgent::new` never panics. It accepts exactly `/name:version/` with two
components that are not empty and have no colon; these are then unique, and the
string is stored as it is. A missing name or version is reported exactly for the
strings that lack one, and every other string has an invalid format. -/
theorem user_agent_grammar (text : String) :
    ∃ result, Bytes.new text = some result ∧
      ((∃ agent, result = .ok agent) ↔ WellFormed text) ∧
      (∀ agent, result = .ok agent → agent.asStr = text ∧
        ∃! components : String × String, Spells text components.1 components.2) ∧
      (result = .error .missingName ↔ LacksName text) ∧
      (result = .error .missingVersion ↔ LacksVersion text) ∧
      (result = .error .invalidFormat ↔
        ¬ WellFormed text ∧ ¬ LacksName text ∧ ¬ LacksVersion text) := by
  refine ⟨UserAgent.new text, Bytes.new_eq text, ?_, ?_,
    new_error_iff.trans (validate_missingName_iff text),
    new_error_iff.trans (validate_missingVersion_iff text),
    new_error_iff.trans (validate_invalidFormat_iff text)⟩
  · rw [← validate_ok_iff]
    constructor
    · rintro ⟨agent, accepted⟩
      exact (new_ok_iff.mp accepted).1
    · intro valid
      exact ⟨⟨text⟩, new_ok_iff.mpr ⟨valid, rfl⟩⟩
  · intro agent accepted
    obtain ⟨valid, rfl⟩ := new_ok_iff.mp accepted
    obtain ⟨name, version, spells, -, -⟩ := (validate_ok_iff text).mp valid
    refine ⟨rfl, (name, version), spells, ?_⟩
    rintro ⟨name', version'⟩ spells'
    obtain ⟨rfl, rfl⟩ := spells.unique spells'
    rfl

/-- A name of more bytes than characters. -/
example : Bytes.new "/größe:1/" = some (.ok ⟨"/größe:1/"⟩) := by
  rw [Bytes.new_eq]
  decide

end BitcoinPeers.UserAgent
