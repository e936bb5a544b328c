import StateMarkup.Diagnostic
import StateMarkup.Proofs.Engine.Words

/-!
# Advice that fits the rule

Advice is found by the wording of a message: phrases are looked for one after the other, and the
message has names in it that the document has chosen. `Violation.advice` says without any wording
what is to be done about a broken rule, and the two agree (`Violation.ofMessage?_message`). A phrase
is found in no message but those it is meant for, whatever the names: names are words, so every
space in a message stands between characters of the fixed wording (`Text.joints`), and a phrase that
is looked for before the right one has a joint that the message lacks, or the message begins
otherwise.
-/

namespace StateMarkup

/-! ## Phrases in a text -/

namespace Text

/-- The characters on both sides of each space of a text. -/
def joints : List Char → List (Char × Char)
  | [] => []
  | a :: rest =>
    match rest with
    | ' ' :: b :: _ => (a, b) :: joints rest
    | _ => joints rest

/-- Where no space follows there is no joint. -/
theorem joints_cons {a : Char} {rest : List Char} (h : rest.head? ≠ some ' ') :
    joints (a :: rest) = joints rest := by
  rw [joints]
  rintro b more rfl
  exact h rfl

/-- A joint is a space in the text with these two characters around it. -/
theorem mem_joints_iff {a b : Char} {cs : List Char} :
    (a, b) ∈ joints cs ↔ [a, ' ', b] <:+: cs := by
  fun_induction joints cs with
  | case1 => simp
  | case2 c d rest ih => simp [List.infix_cons_iff, ih]
  | case3 c rest other ih =>
    have no_joint : ¬ [a, ' ', b] <+: c :: rest := by
      rintro ⟨more, split⟩
      exact other b more (List.cons.inj split).2.symm
    rw [ih, List.infix_cons_iff, or_iff_right no_joint]

/-- Two texts that do not meet in a space have the joints of each and no others. -/
theorem joints_append {start rest : List Char} (before : start.getLast? ≠ some ' ')
    (behind : rest.head? ≠ some ' ') : joints (start ++ rest) = joints start ++ joints rest := by
  fun_induction joints start with
  | case1 => rfl
  | case2 a b more ih =>
    rw [List.getLast?_cons_cons] at before
    rw [List.cons_append, List.cons_append, List.cons_append, joints]
    exact congrArg _ (ih before)
  | case3 a more other ih =>
    cases more with
    | nil => exact joints_cons behind
    | cons b more =>
      rw [List.getLast?_cons_cons] at before
      rw [← ih before]
      refine joints_cons fun space => ?_
      cases more with
      | nil => simp_all
      | cons c more => exact other c more (by simp_all)

/-- A name without spaces makes no joint, nor does it change those around it. This is what makes the
joints of a message known although the names in it are not. -/
theorem joints_around {start name rest : List Char} (before : start.getLast? ≠ some ' ')
    (inside : ' ' ∉ name) (behind : rest.head? ≠ some ' ') :
    joints (start ++ (name ++ rest)) = joints start ++ joints rest := by
  have first (name : List Char) (inside : ' ' ∉ name) : (name ++ rest).head? ≠ some ' ' := by
    cases name with
    | nil => exact behind
    | cons c name =>
      have apart := List.ne_of_not_mem_cons inside
      simpa using apart.symm
  rw [joints_append before (first name inside)]
  induction name with
  | nil => rfl
  | cons c name ih =>
    have inside := List.not_mem_of_not_mem_cons inside
    rw [← ih inside, List.cons_append, joints_cons (first name inside)]

/-- What shows of a text when the names in it are not known: how it begins, and its joints. -/
structure Profile where
  first : Option Char
  joints : List (Char × Char)

/-- The profile of a text. -/
def profile (text : String) : Profile := ⟨text.toList.head?, joints text.toList⟩

/-- A phrase that is found in a text has no joints but those of the text. -/
theorem joints_subset_of_infix {phrase text : List Char} (found : phrase <:+: text) :
    joints phrase ⊆ joints text :=
  fun _ joint => mem_joints_iff.mpr ((mem_joints_iff.mp joint).trans found)

/-- A text that holds a phrase holds it with more text behind. -/
theorem holds_of_left {text phrase : String} (there : holds text phrase = true) (more : String) :
    holds (text ++ more) phrase = true := by
  obtain ⟨before, behind, split⟩ := isInfixOf_iff.mp there
  exact isInfixOf_iff.mpr ⟨before, behind ++ more.toList, by simp [split]⟩

/-- And with more text before it. -/
theorem holds_of_right {text phrase : String} (there : holds text phrase = true) (start : String) :
    holds (start ++ text) phrase = true := by
  obtain ⟨before, behind, split⟩ := isInfixOf_iff.mp there
  exact isInfixOf_iff.mpr ⟨start.toList ++ before, behind, by simp [split]⟩

end Text

/-- True of a form that no text of the profile has: the text begins otherwise, or it lacks a
joint. -/
def Wording.isRuledOut (profile : Text.Profile) : Wording → Bool
  | .exactly text | .startsWith text =>
    text.toList.head?.any (some · != profile.first) ||
      !(Text.joints text.toList).all profile.joints.contains
  | .holds text => !(Text.joints text.toList).all profile.joints.contains

/-- A form that fits is not ruled out. The converse does not hold and is not needed: it is enough
that every form before the right one is ruled out, which can be computed. -/
theorem Wording.isRuledOut_eq_false {message : String} {form : Wording}
    (fits : form.fits message = true) : form.isRuledOut (Text.profile message) = false := by
  have inside {text : String} (found : text.toList <:+: message.toList) :
      (!(Text.joints text.toList).all (Text.profile message).joints.contains) = false := by
    rw [Bool.not_eq_eq_eq_not, Bool.not_false, List.all_eq_true]
    intro joint there
    exact List.contains_iff_mem.mpr (Text.joints_subset_of_infix found there)
  have begins {text : String} (start : text.toList <+: message.toList) :
      text.toList.head?.any (some · != (Text.profile message).first) = false := by
    obtain ⟨behind, split⟩ := start
    rw [Text.profile, ← split]
    cases text.toList <;> simp
  cases form with
  | exactly text =>
    obtain rfl : message = text := by simpa [Wording.fits] using fits
    rw [isRuledOut, begins (List.prefix_refl _), inside (List.infix_refl _), Bool.or_self]
  | startsWith text =>
    have start : text.toList <+: message.toList := List.isPrefixOf_iff_prefix.mp fits
    rw [isRuledOut, begins start, inside start.isInfix, Bool.or_self]
  | holds text =>
    obtain ⟨before, behind, split⟩ := Text.isInfixOf_iff.mp fits
    rw [isRuledOut, inside ⟨before, behind, split.symm⟩]

/-! ## Advice by the rule -/

namespace Violation

/-- What is to be done about a broken rule. -/
def advice : Violation → Hint
  | .rootNotSchema => .suggestion "Wrap the whole document in <Schema> ... </Schema>"
  | .misplacedHooks => .help <|
      "OnBeforeEvent, OnAfterEvent and OnStateSet may appear under <Schema> or " ++
        "directly under a state"
  | .misplacedEvents => .suggestion "Move <Events> inside the state that fires them"
  | .mismatchedTag _ => .help "Close each element with a tag of the same name, or drop --strict"
  | .missingNode name =>
    if name = Tag.states then
      .suggestion "Declare states as children of <States> directly under <Schema>"
    else .suggestion "Wrap the whole document in <Schema> ... </Schema>"
  | .reservedState _ => .help <|
      "Schema, States, Events, Task, OnBeforeEvent, OnAfterEvent and OnStateSet " ++
        "cannot name a state"
  | .stateSharesKey _ | .eventSharesKeys _ _ => .help <|
      "Events named 'event' and states named 'state' collide with the global hooks; " ++
        "rename them"
  | .noTarget _ _ => .suggestion "Add targetState=\"...\" to the event"
  | .undeclaredTarget _ _ _ | .undeclaredErrorState _ _ _ =>
    .suggestion "Declare the state under <States> or fix the spelling"

/-- The names in a violation are words, and what is missing is one of two nodes. -/
def Worded : Violation → Prop
  | .rootNotSchema | .misplacedHooks | .misplacedEvents => True
  | .mismatchedTag name => IsWord name
  | .missingNode name => name = Tag.schema ∨ name = Tag.states
  | .reservedState state | .stateSharesKey state => IsWord state
  | .eventSharesKeys event state | .noTarget event state => IsWord event ∧ IsWord state
  | .undeclaredTarget event state target | .undeclaredErrorState event state target =>
    IsWord event ∧ IsWord state ∧ IsWord target

end Violation

/-- There are no spaces in words. -/
theorem IsWord.space_not_mem {name : String} (word : IsWord name) : ' ' ∉ name.toList :=
  fun space => absurd (word.2 ' ' space) (by decide)

/-! ## The forms of messages -/

/-- The first form that fits gives the advice: the form at some place, if all forms before that are
ruled out. -/
theorem Hint.ofMessage?_eq {message : String} {form : Wording} {hint : Hint} (i : Nat)
    (there : byWording[i]? = some (form, hint)) (fits : form.fits message = true)
    (others : ∀ other ∈ byWording.take i, other.1.isRuledOut (Text.profile message) = true) :
    ofMessage? message = some hint := by
  obtain ⟨inside, there⟩ := List.getElem?_eq_some_iff.mp there
  have none_before : (byWording.take i).find? (·.1.fits message) = none := by
    refine List.find?_eq_none.mpr fun other before fits => ?_
    exact absurd (others other before) (by simp [Wording.isRuledOut_eq_false fits])
  have forms : byWording = byWording.take i ++ (form, hint) :: byWording.drop (i + 1) := by
    rw [← there, ← List.drop_eq_getElem_cons inside, List.take_append_drop]
  rw [ofMessage?, forms, List.find?_append, none_before, Option.none_or, List.find?_cons, fits]
  rfl

namespace Violation

/-- What shows of a message about an event, the tail of which is given. -/
def eventProfile (tail : String) : Text.Profile :=
  ⟨some 'e', [('t', '\''), ('\'', 'i'), ('n', 's'), ('e', '\'')] ++
    Text.joints ('\'' :: tail.toList)⟩

/-- What shows of a message about a state, the tail of which is given. -/
def stateProfile (tail : String) : Text.Profile :=
  ⟨some 's', ('e', '\'') :: Text.joints tail.toList⟩

/-- What shows of a message about an event does not depend on the names in it. -/
theorem profile_event {event state : String} (event_word : IsWord event)
    (state_word : IsWord state) (tail : String) :
    Text.profile (describeEvent event state ++ tail) = eventProfile tail := by
  unfold describeEvent Text.profile
  simp only [String.toList_append, List.append_assoc]
  rw [Text.joints_around (by decide) event_word.space_not_mem (by simp),
    Text.joints_around (by decide) state_word.space_not_mem (by simp), ← List.append_assoc]
  congr 1

/-- Nor does what shows of a message about a state. -/
theorem profile_state {state tail : String} (word : IsWord state)
    (behind : tail.toList.head? ≠ some ' ') :
    Text.profile ("state '" ++ state ++ tail) = stateProfile tail := by
  unfold Text.profile
  simp only [String.toList_append, List.append_assoc]
  rw [Text.joints_around (by decide) word.space_not_mem behind]
  congr 1

/-- Nor does what shows of a message about a close tag. -/
theorem profile_mismatchedTag {name : String} (word : IsWord name) :
    Text.profile (mismatchedTag name).message =
      ⟨some 'm', [('d', 'c'), ('g', 't'), ('g', 'f'), ('r', '<')]⟩ := by
  unfold message Text.profile
  simp only [String.toList_append, List.append_assoc]
  rw [Text.joints_around (by decide) word.space_not_mem (by decide)]
  congr 1

variable {event state tail phrase : String} {hint : Hint}

/-- The advice about an event hangs on the tail of the message only. -/
theorem ofMessage?_event (words : IsWord event ∧ IsWord state) (i : Nat)
    (there : Hint.byWording[i]? = some (.holds phrase, hint))
    (inside : Text.holds tail phrase = true)
    (others : ∀ other ∈ Hint.byWording.take i, other.1.isRuledOut (eventProfile tail) = true) :
    Hint.ofMessage? (describeEvent event state ++ tail) = some hint := by
  refine Hint.ofMessage?_eq i there (Text.holds_of_right inside _) ?_
  rwa [profile_event words.1 words.2]

/-- So does the advice about a state. -/
theorem ofMessage?_state (word : IsWord state) (behind : tail.toList.head? ≠ some ' ') (i : Nat)
    (there : Hint.byWording[i]? = some (.holds phrase, hint))
    (inside : Text.holds tail phrase = true)
    (others : ∀ other ∈ Hint.byWording.take i, other.1.isRuledOut (stateProfile tail) = true) :
    Hint.ofMessage? ("state '" ++ state ++ tail) = some hint := by
  refine Hint.ofMessage?_eq i there (Text.holds_of_right inside _) ?_
  rwa [profile_state word behind]

/-- No form that is asked of the beginning of a message begins like a message about an event. -/
theorem no_early_form (tail : String) :
    ∀ other ∈ Hint.byWording.take 5, other.1.isRuledOut (eventProfile tail) = true := by
  simp [Hint.byWording, Wording.isRuledOut, eventProfile]

/-- **The advice found by the wording of a message is that for the rule**, whatever the names. There
is one case for each kind of violation. Where a message has names in it, the forms before the right
one are ruled out by its profile; the others are computed. -/
theorem ofMessage?_message {v : Violation} (words : v.Worded) :
    Hint.ofMessage? v.message = some v.advice := by
  cases v with
  | rootNotSchema => decide +kernel
  | misplacedHooks => decide +kernel
  | misplacedEvents => decide +kernel
  | missingNode name => rcases words with rfl | rfl <;> decide +kernel
  | mismatchedTag name =>
    -- the numbers here and below are the places of the right forms among all forms
    refine Hint.ofMessage?_eq 7 rfl ?_ ?_
    · unfold message Wording.fits Text.startsWith
      simp
    · rw [profile_mismatchedTag words]
      decide +kernel
  | reservedState state =>
    have split : (reservedState state).message =
        "state '" ++ state ++ "' uses a reserved tag name" := rfl
    rw [split]
    exact ofMessage?_state words (by decide) 9 rfl (by decide +kernel) (by decide +kernel)
  | stateSharesKey state =>
    have split : (stateSharesKey state).message =
        "state '" ++ state ++ ("' shares its hook key with " ++ HookKey.enterState) :=
      String.append_assoc
    rw [split]
    exact ofMessage?_state words (by decide) 8 rfl (by decide +kernel) (by decide +kernel)
  | eventSharesKeys event state =>
    have split : (eventSharesKeys event state).message =
        describeEvent event state ++ (" shares its hook keys with " ++ HookKey.beforeEvent) :=
      String.append_assoc
    rw [split]
    exact ofMessage?_event words 8 rfl (by decide +kernel) (by decide +kernel)
  | noTarget event state =>
    have split : (noTarget event state).message =
        describeEvent event state ++ (" has no " ++ Tag.targetState) := String.append_assoc
    rw [split]
    exact ofMessage?_event words 6 rfl (by decide +kernel) (by decide +kernel)
  | undeclaredTarget event state target =>
    have split : (undeclaredTarget event state target).message =
        describeEvent event state ++ (" targets undeclared state '" ++ (target ++ "'")) := by
      unfold message
      simp only [String.append_assoc]
    rw [split]
    exact ofMessage?_event ⟨words.1, words.2.1⟩ 5 rfl
      (Text.holds_of_left (by decide +kernel) _) (no_early_form _)
  | undeclaredErrorState event state target =>
    have split : (undeclaredErrorState event state target).message =
        describeEvent event state ++ (" falls back to undeclared state '" ++ (target ++ "'")) := by
      unfold message
      simp only [String.append_assoc]
    rw [split]
    exact ofMessage?_event ⟨words.1, words.2.1⟩ 5 rfl
      (Text.holds_of_left (by decide +kernel) _) (no_early_form _)

end Violation

/-! ## Violations in words -/

/-- At a node with a word for its name the rules find violations in words. -/
theorem Visit.worded_of_mem_violations {v : Visit} {strict : Bool} {declared : NameSet}
    (word : IsWord v.node.name) {broken : Violation} (h : broken ∈ v.violations strict declared) :
    broken.Worded := by
  simp only [violations, checkRoot, checkHooks, checkEvents, checkClosed, List.mem_append,
    List.mem_ite_nil_right, List.mem_singleton] at h
  rcases h with ((⟨-, rfl⟩ | ⟨-, rfl⟩) | ⟨-, rfl⟩) | ⟨-, -, rfl⟩
  · trivial
  · trivial
  · trivial
  · exact word

/-- The walk over a tree of words finds violations in words. -/
theorem Node.worded_of_mem_survey {root : Node} (all : root.AllRegular) {strict : Bool}
    {broken : Violation} (h : broken ∈ (root.survey strict).violations) : broken.Worded := by
  rw [survey, List.mem_append] at h
  rcases h with found | missing
  · obtain before | ⟨v, met, declared, found⟩ := Survey.mem_violations_visitAll found
    · cases before
    · have within : root.Within v.node := exists_mem_breadthFirst_iff.mp ⟨v, met, rfl⟩
      exact Visit.worded_of_mem_violations (all v.node within).name found
  · obtain ⟨name, among, rfl⟩ := List.mem_map.mp missing
    simpa [Violation.Worded] using List.mem_of_mem_filter among

/-- The name of a state is the only one in what is wrong with it. -/
theorem State.worded_of_mem_referenceViolations {state : State} (word : IsWord state.name)
    {broken : Violation} (h : broken ∈ state.referenceViolations) : broken.Worded := by
  simp only [referenceViolations, List.mem_append, List.mem_ite_nil_right,
    List.mem_singleton] at h
  rcases h with ⟨-, rfl⟩ | ⟨-, rfl⟩
  · exact word
  · exact word

/-- What is wrong with an event names the event, its state and where it leads. An empty target is
reported without being named. -/
theorem Event.worded_of_mem_referenceViolations {event : Event} {state : String}
    {declared : NameSet} (words : event.Worded) (owner : IsWord state) {broken : Violation}
    (h : broken ∈ event.referenceViolations state declared) : broken.Worded := by
  rw [referenceViolations, List.mem_append, List.mem_append] at h
  rcases h with (key | target) | errorState
  · rw [List.mem_ite_nil_right, List.mem_singleton] at key
    obtain ⟨-, rfl⟩ := key
    exact ⟨words.name, owner⟩
  · split at target
    · obtain rfl := List.mem_singleton.mp target
      exact ⟨words.name, owner⟩
    · rename_i given
      rw [List.mem_ite_nil_left, List.mem_singleton] at target
      obtain ⟨-, rfl⟩ := target
      exact ⟨words.name, owner, words.target.resolve_left given⟩
  · split at errorState
    · rename_i target answer
      rw [List.mem_ite_nil_left, List.mem_singleton] at errorState
      obtain ⟨-, rfl⟩ := errorState
      exact ⟨words.name, owner, words.errorState target answer⟩
    · cases errorState

/-- The names that a schema of words refers to are words. -/
theorem Schema.worded_of_mem_referenceViolations {schema : Schema} (words : schema.Worded)
    {declared : NameSet} {broken : Violation} (h : broken ∈ schema.referenceViolations declared) :
    broken.Worded := by
  rcases List.mem_append.mp h with about_state | about_event
  · obtain ⟨state, hstate, found⟩ := List.mem_flatMap.mp about_state
    exact State.worded_of_mem_referenceViolations (words.states state hstate).name found
  · obtain ⟨⟨state, event⟩, listed, found⟩ := List.mem_flatMap.mp about_event
    obtain ⟨hstate, hevent⟩ := mem_events_iff.mp listed
    have owner := words.states state hstate
    exact Event.worded_of_mem_referenceViolations (owner.events event hevent) owner.name found

namespace Engine

variable {options : EngineOptions} {source : String} {found : List Violation}

/-- A document whose compiling fails with violations has a tree, and they are those of the tree. -/
theorem exists_of_compile_violations
    (failed : (compile options source).result = .error (.violations found)) :
    ∃ document, Document.parse source = .ok document ∧
      ofNode options document.root = .error found := by
  cases parsed : Document.parse source with
  | error errors =>
    rw [compile_eq_syntaxErrors_iff.mpr parsed] at failed
    cases failed
  | ok document => exact ⟨document, rfl, (compile_eq_violations_iff parsed).mp failed⟩

/-- **All that is violated by a document is in words.** -/
theorem worded_of_compile_violations
    (failed : (compile options source).result = .error (.violations found)) :
    found ≠ [] ∧ ∀ broken ∈ found, broken.Worded := by
  obtain ⟨document, parsed, failed⟩ := exists_of_compile_violations failed
  have all := (Document.isDocument_root parsed).regular
  rcases ofNode_eq_error_iff.mp failed with invalid | ⟨states, -, -, dangling⟩
  · obtain ⟨some_violation, rfl⟩ := Node.validate_eq_error_iff.mp invalid
    exact ⟨some_violation, fun _ => Node.worded_of_mem_survey all⟩
  · obtain ⟨some_violation, rfl⟩ := Schema.checkReferences_eq_error_iff.mp dangling
    exact ⟨some_violation,
      fun _ => Schema.worded_of_mem_referenceViolations (Schema.worded_ofNode all)⟩

end Engine

/-! ## Diagnostics of violations -/

namespace Diagnostic

/-- **Every violation is shown with the advice for its rule.** If a document is read and not
compiled, there is a diagnostic for each violation, in order, with its message, the file and the
advice for the rule that is broken; that is a suggestion or a help, and never both. -/
theorem violations_advised {options : EngineOptions} {source : String} {found : List Violation}
    (failed : (Engine.compile options source).result = .error (.violations found))
    (file : String) :
    found ≠ [] ∧
      ofCompileError file source (.violations found) =
        found.map (fun broken => ⟨broken.message, none, some file, none, some broken.advice⟩) ∧
      ∀ d ∈ ofCompileError file source (.violations found),
        ((d.hint.bind Hint.suggestion?).isSome ^^ (d.hint.bind Hint.help?).isSome) = true := by
  obtain ⟨some_violation, words⟩ := Engine.worded_of_compile_violations failed
  have all : ofCompileError file source (.violations found) =
      found.map fun broken => ⟨broken.message, none, some file, none, some broken.advice⟩ := by
    refine List.map_congr_left fun broken mem => ?_
    rw [ofViolationMessage, Violation.ofMessage?_message (words broken mem)]
  refine ⟨some_violation, all, ?_⟩
  rw [all, List.forall_mem_map]
  intro broken _
  cases broken.advice <;> rfl

/-- Names that are made of the words of other messages do not matter. -/
theorem violations_advised_of_twelve :
    let placed := "<root_node><undeclared_state></Events><Events></Events>" ++
      "<x><OnStateSet></OnStateSet></x></root_node>"
    let referred := "<Schema><States><Task></Task><state></state><undeclared><Events>" ++
      "<event></event><reserved targetState=\"tag\" errorState=\"name\"></reserved>" ++
      "</Events></undeclared></States></Schema>"
    let misplaced : List Violation := [.rootNotSchema, .mismatchedTag "undeclared_state",
      .misplacedEvents, .misplacedHooks, .missingNode "Schema", .missingNode "States"]
    let dangling : List Violation := [.reservedState "Task", .stateSharesKey "state",
      .eventSharesKeys "event" "undeclared", .noTarget "event" "undeclared",
      .undeclaredTarget "reserved" "undeclared" "tag",
      .undeclaredErrorState "reserved" "undeclared" "name"]
    ((Engine.compile ⟨true, true⟩ placed).result = .error (.violations misplaced) ∧
      (ofCompileError "a" placed (.violations misplaced)).map (·.hint) =
        misplaced.map fun broken => some broken.advice) ∧
    (Engine.compile ⟨true, true⟩ referred).result = .error (.violations dangling) ∧
      (ofCompileError "a" referred (.violations dangling)).map (·.hint) =
        dangling.map fun broken => some broken.advice := by
  intro placed referred misplaced dangling
  have failed : (Engine.compile ⟨true, true⟩ placed).result = .error (.violations misplaced) :=
    eq_error_of_map_unit (by decide +kernel)
  have failed' : (Engine.compile ⟨true, true⟩ referred).result = .error (.violations dangling) :=
    eq_error_of_map_unit (by decide +kernel)
  refine ⟨⟨failed, ?_⟩, failed', ?_⟩
  · rw [(violations_advised failed "a").2.1, List.map_map]
    rfl
  · rw [(violations_advised failed' "a").2.1, List.map_map]
    rfl

end Diagnostic

end StateMarkup
