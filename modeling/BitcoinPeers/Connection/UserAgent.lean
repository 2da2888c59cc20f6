import BitcoinPeers.Connection.Handshake
import BitcoinPeers.Foundation.Text

/-!
Contract: `connection/src/user_agent.rs`.

Owns:
- validation of user agent strings, with its errors;
- the ways to build a `UserAgent`, of which one formats without validating;
- the exact condition under which a built user agent is valid.

A string is handled as its characters. The slice between the slashes is taken
where both are there, so it never cuts a character.
-/

namespace BitcoinPeers

inductive UserAgentError where
  | invalidFormat
  | missingName
  | missingVersion
deriving DecidableEq, Repr

def validateBitcoinCoreFormat (userAgent : String) : Except UserAgentError Unit :=
  let text := userAgent.toList
  if text.head? ≠ some '/' ∨ text.getLast? ≠ some '/' then .error .invalidFormat
  else if ':' ∉ text then .error .invalidFormat
  else
    let contents := (text.drop 1).dropLast
    match contents.splitOn ':' with
    | [name, version] =>
        if name = [] then .error .missingName
        else if version = [] then .error .missingVersion
        else .ok ()
    | _ => .error .invalidFormat

namespace UserAgent

open BitcoinPeers.Foundation

def new (userAgent : String) : Except UserAgentError UserAgent :=
  match validateBitcoinCoreFormat userAgent with
  | .error error => .error error
  | .ok () => .ok ⟨userAgent⟩

def fromStr (text : String) : Except UserAgentError UserAgent := new text

/-- The ways to build a user agent. -/
inductive Construction where
  | new (text : String)
  | fromStr (text : String)
  | fromNameVersion (name version : String)
  | defaultUserAgent

def Construction.build : Construction → Except UserAgentError UserAgent
  | .new text => UserAgent.new text
  | .fromStr text => UserAgent.fromStr text
  | .fromNameVersion name version => .ok (UserAgent.fromNameVersion name version)
  | .defaultUserAgent => .ok BitcoinPeers.defaultUserAgent

/-- Names and versions that the format can carry. -/
def Construction.WellFormed : Construction → Prop
  | .fromNameVersion name version =>
      name ≠ "" ∧ version ≠ "" ∧ ':' ∉ name.toList ∧ ':' ∉ version.toList
  | _ => True

/-- The user agent passes its own validation. -/
def Valid (agent : UserAgent) : Prop := new agent.asStr = .ok agent

/-! ## Validation of formatted strings -/

theorem valid_iff (agent : UserAgent) :
    agent.Valid ↔ validateBitcoinCoreFormat agent.asStr = .ok () := by
  unfold Valid new
  cases validateBitcoinCoreFormat agent.asStr with
  | error error => simp
  | ok _ => simp [asStr]

theorem toList_bitcoinCoreFormat (name version : String) :
    (bitcoinCoreFormat name version).toList =
      '/' :: (name.toList ++ ':' :: version.toList ++ ['/']) := by
  unfold bitcoinCoreFormat
  simp

/-- The result for the parts of the contents. -/
def judgeParts : List (List Char) → Except UserAgentError Unit
  | [name, version] =>
      if name = [] then .error .missingName
      else if version = [] then .error .missingVersion
      else .ok ()
  | _ => .error .invalidFormat

/-- Between two slashes the parts around the colons decide. -/
theorem validate_enclosed {text : String} {contents : List Char}
    (enclosed : text.toList = '/' :: (contents ++ ['/'])) (colon : ':' ∈ contents) :
    validateBitcoinCoreFormat text = judgeParts (contents.splitOn ':') := by
  have starts : text.toList.head? = some '/' := by rw [enclosed, List.head?_cons]
  have ends : text.toList.getLast? = some '/' := by
    rw [enclosed, ← List.cons_append, List.getLast?_concat]
  have somewhere : ':' ∈ text.toList := by
    rw [enclosed]
    exact List.mem_cons_of_mem _ (List.mem_append_left _ colon)
  have inside : (text.toList.drop 1).dropLast = contents := by
    rw [enclosed, List.drop_succ_cons, List.drop_zero, List.dropLast_concat]
  unfold validateBitcoinCoreFormat
  dsimp only
  rw [if_neg (by simp [starts, ends]), if_neg (not_not.mpr somewhere), inside]
  rfl

/-- A formatted string is judged by its components when neither has a colon. -/
theorem validate_bitcoinCoreFormat {name version : String}
    (plain : ':' ∉ name.toList ∧ ':' ∉ version.toList) :
    validateBitcoinCoreFormat (bitcoinCoreFormat name version) =
      if name = "" then .error .missingName
      else if version = "" then .error .missingVersion
      else .ok () := by
  rw [validate_enclosed (toList_bitcoinCoreFormat name version) (by simp),
    splitOn_eq_pair_iff.mpr ⟨rfl, plain⟩]
  simp [judgeParts]

/-- A string that is not rejected for its format is formatted from components
without a colon. -/
theorem exists_components {text : String}
    (formatted : validateBitcoinCoreFormat text ≠ .error .invalidFormat) :
    ∃ name version, (':' ∉ name.toList ∧ ':' ∉ version.toList) ∧
      text = bitcoinCoreFormat name version := by
  by_cases slashes : text.toList.head? ≠ some '/' ∨ text.toList.getLast? ≠ some '/'
  · exact absurd (by rw [validateBitcoinCoreFormat, if_pos slashes]) formatted
  by_cases colon : ':' ∈ text.toList
  · rw [not_or, not_not, not_not] at slashes
    obtain ⟨contents, enclosed⟩ :=
      exists_enclosed slashes.1 slashes.2 colon (by decide)
    have inside : ':' ∈ contents := by simpa [enclosed] using colon
    rw [validate_enclosed enclosed inside] at formatted
    unfold judgeParts at formatted
    split at formatted
    next name version parts =>
      obtain ⟨joined, plain⟩ := splitOn_eq_pair_iff.mp parts
      refine ⟨.ofList name, .ofList version, by simpa using plain, ?_⟩
      apply String.toList_inj.mp
      rw [enclosed, toList_bitcoinCoreFormat, joined]
      simp
    next => exact absurd rfl formatted
  · exact absurd (by rw [validateBitcoinCoreFormat, if_neg slashes, if_pos colon]) formatted

/-- A formatted string is valid exactly when neither component is empty or has a
colon. -/
theorem validate_bitcoinCoreFormat_iff (name version : String) :
    validateBitcoinCoreFormat (bitcoinCoreFormat name version) = .ok () ↔
      name ≠ "" ∧ version ≠ "" ∧ ':' ∉ name.toList ∧ ':' ∉ version.toList := by
  by_cases plain : ':' ∉ name.toList ∧ ':' ∉ version.toList
  · rw [validate_bitcoinCoreFormat plain]
    by_cases named : name = "" <;> by_cases versioned : version = "" <;>
      simp [named, versioned, plain]
  · rw [validate_enclosed (toList_bitcoinCoreFormat name version) (by simp)]
    unfold judgeParts
    split
    next first second two => exact absurd (absent_of_two_parts (by rw [two]; rfl)) plain
    next => simp [plain]

theorem valid_fromNameVersion_iff (name version : String) :
    (UserAgent.fromNameVersion name version).Valid ↔
      (Construction.fromNameVersion name version).WellFormed := by
  rw [valid_iff]
  exact validate_bitcoinCoreFormat_iff name version

theorem valid_of_new {text : String} {agent : UserAgent} (built : new text = .ok agent) :
    agent.Valid := by
  have same : agent = ⟨text⟩ := by
    unfold new at built
    split at built
    · cases built
    · cases built
      rfl
  subst same
  exact built

theorem valid_defaultUserAgent : BitcoinPeers.defaultUserAgent.Valid := by
  rw [BitcoinPeers.defaultUserAgent, valid_fromNameVersion_iff]
  exact ⟨by decide, by decide, by decide, by decide⟩

/-! ## Built user agents -/

/-- The user agent of the version message. -/
theorem createVersionMessage_userAgent (connection : Connection) (nonce : UInt64)
    (unixTimestamp : Int64) :
    ∃ version, connection.createVersionMessage nonce unixTimestamp = .version version ∧
      version.userAgent =
        (connection.configuration.userAgent.getD BitcoinPeers.defaultUserAgent).asStr := by
  refine ⟨_, rfl, ?_⟩
  dsimp only
  cases connection.configuration.userAgent <;> rfl

/-- A built user agent is valid, and the string it puts on the wire passes
validation, exactly when it was not formatted from an empty component or one
with a colon. Without a configured user agent the string always passes. -/
theorem built_user_agent_valid_iff (construction : Construction) (agent : UserAgent)
    (built : construction.build = .ok agent) :
    (UserAgent.new agent.asStr = .ok agent ↔ construction.WellFormed) ∧
      ∀ (connection : Connection) (nonce : UInt64) (unixTimestamp : Int64),
        ∃ version, connection.createVersionMessage nonce unixTimestamp = .version version ∧
          (connection.configuration.userAgent = some agent →
            (validateBitcoinCoreFormat version.userAgent = .ok () ↔ construction.WellFormed)) ∧
          (connection.configuration.userAgent = none →
            validateBitcoinCoreFormat version.userAgent = .ok ()) := by
  have valid : agent.Valid ↔ construction.WellFormed := by
    cases construction with
    | new text => exact iff_of_true (valid_of_new built) trivial
    | fromStr text => exact iff_of_true (valid_of_new built) trivial
    | fromNameVersion name version =>
        cases built
        exact valid_fromNameVersion_iff name version
    | defaultUserAgent =>
        cases built
        exact iff_of_true valid_defaultUserAgent trivial
  refine ⟨valid, fun connection nonce unixTimestamp => ?_⟩
  obtain ⟨version, message, text⟩ :=
    createVersionMessage_userAgent connection nonce unixTimestamp
  refine ⟨version, message, fun configured => ?_, fun unset => ?_⟩
  · rw [text, configured, ← valid, valid_iff]
    rfl
  · rw [text, unset]
    exact (valid_iff _).mp valid_defaultUserAgent

theorem built_user_agent_valid_iff_sample :
    UserAgent.new (UserAgent.fromNameVersion "bitcoin-peers" "0.1.0").asStr =
      .ok (UserAgent.fromNameVersion "bitcoin-peers" "0.1.0") := by
  apply (built_user_agent_valid_iff (.fromNameVersion "bitcoin-peers" "0.1.0") _ rfl).1.mpr
  exact ⟨by decide, by decide, by decide, by decide⟩

/-- A version with a colon gives a user agent that does not pass validation. -/
theorem colon_in_version_invalid :
    (Construction.fromNameVersion "bitcoin-peers" "0.1.0:beta").build =
        .ok (UserAgent.fromNameVersion "bitcoin-peers" "0.1.0:beta") ∧
      UserAgent.new (UserAgent.fromNameVersion "bitcoin-peers" "0.1.0:beta").asStr =
        .error .invalidFormat := by
  exact ⟨rfl, by decide⟩

end UserAgent

end BitcoinPeers
