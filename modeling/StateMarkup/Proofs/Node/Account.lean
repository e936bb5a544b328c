import StateMarkup.Proofs.Node.Elements
import StateMarkup.Proofs.Node.Printing
import StateMarkup.Proofs.Schema.CloseTags

/-!
# No token is lost

Every token of a document that is read is there for something: it begins an element, ends its begin
tag or closes it, it is one of the five tokens of an attribute, it is a word among the contents, or
it is skipped and there is a warning that says so. An account of a document (`Document.Accounts`)
gives each token its role, and the roles are all taken: what the tokens in a role stand for are the
elements of the tree, its attributes and the warnings, each once and in order.

`Document.accounted` says that every document has such an account, and what can be counted with it.
-/

namespace StateMarkup

universe u

/-- The marked elements are among those that are closed, in the same order. -/
theorem Node.unknowns_eq_closings (n : Node) :
    n.unknowns = (n.closings.filter (·.kind = .unknown)).map name := by
  induction n using induct with
  | node n ih =>
    rw [closings, gather_eq, List.nil_append, unknowns_eq, List.filter_append, List.map_append,
      List.filter_flatMap, List.map_flatMap]
    congr 1
    · exact List.flatMap_congr ih
    · unfold asElement
      cases kind : n.kind <;> simp [kind]

/-! ## What is there for what -/

/-- What a token of a document is there for. -/
inductive Role where
  /-- it begins the element -/
  | begins (element : Node)
  /-- it is the bracket behind the attributes of the element -/
  | ends (element : Node)
  /-- it closes the element -/
  | closes (element : Node)
  /-- it stands at one of the five places of the attribute -/
  | part (a : Attribute) (place : Fin 5)
  /-- it is a word among the contents -/
  | word
  /-- it is skipped -/
  | skipped

/-- A token with what it is there for. -/
structure Entry where
  lexeme : Lexeme
  role : Role

/-- All places of an attribute. -/
def Attribute.places (a : Attribute) : List (Attribute × Fin 5) :=
  (List.finRange 5).map fun place => (a, place)

/-- The places of all attributes of an element. -/
def Node.places (e : Node) : List (Attribute × Fin 5) := e.attributes.flatMap Attribute.places

namespace Entry

/-- A token that can be what it is there for: its kind, its literal and the element or the attribute
that it stands for go together. -/
inductive Fits : Entry → Prop where
  | begins {literal : String} {span : Span} {e : Node} :
      beginTagName literal = e.name →
      Fits ⟨⟨.beginTag literal, span⟩, .begins e⟩
  | ends {span : Span} {e : Node} : Fits ⟨⟨.endTag, span⟩, .ends e⟩
  /-- an element below the root is marked if it is closed by another name, and only then -/
  | closes {literal : String} {span : Span} {e : Node} :
      (e.kind ≠ .root → (e.kind = .unknown ↔ closeTagName literal ≠ e.name)) →
      Fits ⟨⟨.closeTag literal, span⟩, .closes e⟩
  | part {token : Token} {span : Span} {a : Attribute} {place : Fin 5} :
      a.tokens[place.val]? = some token →
      Fits ⟨⟨token, span⟩, .part a place⟩
  | word {text : String} {span : Span} : Fits ⟨⟨.text text, span⟩, .word⟩
  | skipped {lexeme : Lexeme} : Fits ⟨lexeme, .skipped⟩

variable (entry : Entry)

/-- The element that begins here. -/
def begun? : Option Node :=
  match entry.role with
  | .begins e => some e
  | _ => none

/-- The element whose begin tag ends here. -/
def ended? : Option Node :=
  match entry.role with
  | .ends e => some e
  | _ => none

/-- The element that is closed here. -/
def closed? : Option Node :=
  match entry.role with
  | .closes e => some e
  | _ => none

/-- The attribute and the place in it. -/
def part? : Option (Attribute × Fin 5) :=
  match entry.role with
  | .part a place => some (a, place)
  | _ => none

/-- The word that is said here. -/
def word? : Option String :=
  match entry.role with
  | .word => some entry.lexeme.token.literal
  | _ => none

/-- What is reported of a token: that it is skipped, or that it closes an element by another
name. -/
def warning? : Option SyntaxWarning :=
  match entry.role with
  | .skipped => some (.skippedToken entry.lexeme.token.literal entry.lexeme.span)
  | .closes e =>
    let closed := closeTagName entry.lexeme.token.literal
    if closed = e.name then none else some (.mismatchedCloseTag e.name closed entry.lexeme.span)
  | _ => none

end Entry

/-- True of a warning about a token that is skipped. -/
def SyntaxWarning.isSkipped : SyntaxWarning → Bool
  | .skippedToken _ _ => true
  | .mismatchedCloseTag _ _ _ => false

/-- **Every token has one role**, so the tokens can be counted by roles. A close tag by another name
has its role as such, and its warning is of another sort than that of a skipped token; so nothing is
counted twice. -/
theorem length_entries (entries : List Entry) :
    entries.length = (entries.filterMap Entry.begun?).length +
      (entries.filterMap Entry.ended?).length + (entries.filterMap Entry.closed?).length +
      (entries.filterMap Entry.part?).length + (entries.filterMap Entry.word?).length +
      ((entries.filterMap Entry.warning?).filter SyntaxWarning.isSkipped).length := by
  induction entries with
  | nil => rfl
  | cons entry rest ih =>
    obtain ⟨lexeme, role⟩ := entry
    simp only [List.filterMap_cons, List.length_cons, ih, Entry.begun?, Entry.ended?,
      Entry.closed?, Entry.part?, Entry.word?, Entry.warning?]
    cases role with
    | closes e =>
      by_cases own : closeTagName lexeme.token.literal = e.name
      · simp [own]
        omega
      · simp [own, SyntaxWarning.isSkipped]
        omega
    | skipped =>
      simp [List.filter_cons, SyntaxWarning.isSkipped]
      omega
    | _ =>
      simp only [List.length_cons]
      omega

/-! ## The account of a begin tag -/

/-- What the tokens of a begin tag are there for. The cases are those of `readAttributes`, so that
the two can be followed side by side. -/
def accountRun : List Lexeme → List Entry
  | ⟨.text name, s₀⟩ :: ⟨.assign, s₁⟩ :: ⟨.quote, s₂⟩ :: ⟨.text value, s₃⟩ :: ⟨.quote, s₄⟩ ::
      rest =>
    ⟨⟨.text name, s₀⟩, .part ⟨name, value⟩ 0⟩ :: ⟨⟨.assign, s₁⟩, .part ⟨name, value⟩ 1⟩ ::
      ⟨⟨.quote, s₂⟩, .part ⟨name, value⟩ 2⟩ :: ⟨⟨.text value, s₃⟩, .part ⟨name, value⟩ 3⟩ ::
      ⟨⟨.quote, s₄⟩, .part ⟨name, value⟩ 4⟩ :: accountRun rest
  | lexeme :: rest => ⟨lexeme, .skipped⟩ :: accountRun rest
  | [] => []

/-- The account of a begin tag is complete and right: it has all the tokens, each of them as
something that it can be, and from it one can tell what has been read and what reported. -/
structure AccountsRun (run : List Lexeme) (entries : List Entry) : Prop where
  lexemes : entries.map Entry.lexeme = run
  fits : ∀ entry ∈ entries, entry.Fits
  /-- nothing begins, ends or is said in it -/
  roles : ∀ entry ∈ entries, (∃ a place, entry.role = .part a place) ∨ entry.role = .skipped
  parts : entries.filterMap Entry.part? = (readAttributes run).1.flatMap Attribute.places
  warnings : entries.filterMap Entry.warning? = (readAttributes run).2

/-- Where an attribute is read its five tokens are its parts, and all others are skipped. -/
theorem accountsRun (run : List Lexeme) : AccountsRun run (accountRun run) := by
  fun_induction accountRun run with
  | case1 name s₀ s₁ s₂ value s₃ s₄ rest ih =>
    obtain ⟨lexemes, fits, roles, parts, warnings⟩ := ih
    refine ⟨by simp [lexemes], ?_, ?_, ?_, ?_⟩
    · simp only [List.forall_mem_cons]
      exact ⟨.part rfl, .part rfl, .part rfl, .part rfl, .part rfl, fits⟩
    · simp only [List.forall_mem_cons]
      exact ⟨.inl ⟨_, _, rfl⟩, .inl ⟨_, _, rfl⟩, .inl ⟨_, _, rfl⟩, .inl ⟨_, _, rfl⟩,
        .inl ⟨_, _, rfl⟩, roles⟩
    · rw [readAttributes, List.flatMap_cons, ← parts]
      rfl
    · rw [readAttributes, ← warnings]
      rfl
  | case2 lexeme rest other ih =>
    obtain ⟨lexemes, fits, roles, parts, warnings⟩ := ih
    refine ⟨by simp [lexemes], ?_, ?_, ?_, ?_⟩
    · exact List.forall_mem_cons.mpr ⟨.skipped, fits⟩
    · exact List.forall_mem_cons.mpr ⟨.inr rfl, roles⟩
    · rw [readAttributes, ← parts]
      · rfl
      · exact other
    · rw [readAttributes]
      · exact congrArg (_ :: ·) warnings
      · exact other
  | case3 => exact ⟨rfl, nofun, nofun, rfl, rfl⟩

/-- Nothing but attributes and warnings can be found in the account of a begin tag's tokens. -/
theorem filterMap_accountRun_eq_nil {α : Type u} {f : Entry → Option α} (run : List Lexeme)
    (part : ∀ lexeme a place, f ⟨lexeme, .part a place⟩ = none)
    (skipped : ∀ lexeme, f ⟨lexeme, .skipped⟩ = none) :
    (accountRun run).filterMap f = [] := by
  refine List.filterMap_eq_nil_iff.mpr fun entry hentry => ?_
  obtain ⟨lexeme, role⟩ := entry
  rcases (accountsRun run).roles _ hentry with ⟨a, place, rfl⟩ | rfl
  · exact part lexeme a place
  · exact skipped lexeme

/-! ## The account of markup -/

/-- What the tokens of a begin tag are there for, if it opens the element. -/
def Opening.account (o : Opening) (e : Node) : List Entry :=
  ⟨⟨.beginTag o.literal, o.span⟩, .begins e⟩ :: accountRun o.run ++
    [⟨⟨.endTag, o.bracket⟩, .ends e⟩]

/-- What a close tag is there for, if it closes the element. -/
def Closing.account (c : Closing) (e : Node) : Entry := ⟨c.lexeme, .closes e⟩

/-- What the tokens of markup are there for. An element tells of its tokens as it will be once it is
closed, although its begin tag comes long before. -/
def Markup.account : Markup → List Entry
  | empty => []
  | word before text span => before.account ++ [⟨⟨.text text, span⟩, .word⟩]
  | element before opening inner closing =>
    before.account ++ (opening.account (node opening inner closing) ++ inner.account ++
      [closing.account (node opening inner closing)])

namespace Opening

variable (o : Opening) {e : Node}

theorem map_account (e : Node) : (o.account e).map Entry.lexeme = o.lexemes := by
  simp [account, lexemes, (accountsRun o.run).lexemes]

/-- Each of these tokens can be what it is there for, if the element has the name that the tag
gives. -/
theorem fits_account (name : e.name = o.element.name) : ∀ entry ∈ o.account e, entry.Fits := by
  rw [account, List.cons_append, List.forall_mem_cons, List.forall_mem_append,
    List.forall_mem_singleton]
  exact ⟨.begins name.symm, (accountsRun o.run).fits, .ends⟩

/-- The five tokens of each attribute are told in the account. -/
theorem parts_account (attributes : e.attributes = o.element.attributes) :
    (o.account e).filterMap Entry.part? = e.attributes.flatMap Attribute.places := by
  rw [attributes, account, List.cons_append, List.filterMap_cons, List.filterMap_append,
    (accountsRun o.run).parts]
  exact List.append_nil _

/-- So is what is reported of the tag. -/
theorem warnings_account (e : Node) : (o.account e).filterMap Entry.warning? = o.warnings := by
  rw [account, List.cons_append, List.filterMap_cons, List.filterMap_append,
    (accountsRun o.run).warnings]
  exact List.append_nil _

/-- What neither attributes nor warnings tell stands at the two ends of a begin tag. Elements and
words are looked for with this. -/
theorem filterMap_account {α : Type u} {f : Entry → Option α} (e : Node)
    (part : ∀ lexeme a place, f ⟨lexeme, .part a place⟩ = none)
    (skipped : ∀ lexeme, f ⟨lexeme, .skipped⟩ = none) :
    (o.account e).filterMap f =
      (f ⟨⟨.beginTag o.literal, o.span⟩, .begins e⟩).toList ++
        (f ⟨⟨.endTag, o.bracket⟩, .ends e⟩).toList := by
  rw [account, List.cons_append, List.filterMap_cons, List.filterMap_append,
    filterMap_accountRun_eq_nil o.run part skipped, List.nil_append]
  cases f ⟨⟨.beginTag o.literal, o.span⟩, .begins e⟩ <;>
    cases ends : f ⟨⟨.endTag, o.bracket⟩, .ends e⟩ <;> simp [ends]

end Opening

namespace Closing

variable (c : Closing) {e : Node}

/-- A close tag can be what it is there for if the element is marked exactly when it is closed by
another name. -/
theorem fits_account (marked : e.kind ≠ .root → (e.kind = .unknown ↔ c.name ≠ e.name)) :
    (c.account e).Fits := .closes marked

/-- What is reported of a close tag is told in its account. -/
theorem warnings_account (e : Node) :
    [c.account e].filterMap Entry.warning? = c.warnings e.name := by
  have reported : (c.account e).warning? =
      if c.name = e.name then none else some (.mismatchedCloseTag e.name c.name c.span) := rfl
  rw [List.filterMap_cons, reported, warnings]
  by_cases own : c.name = e.name <;> simp [own]

end Closing

/-- An element is marked exactly if it is closed by another name. -/
theorem OpenElement.toNode_kind_iff (e : OpenElement) (closed : String) :
    (e.toNode closed).kind = .unknown ↔ closed ≠ e.name := by
  by_cases own : closed = e.name <;> simp [toNode, own]

namespace Markup

theorem map_account (m : Markup) : m.account.map Entry.lexeme = m.lexemes := by
  induction m with
  | empty => rfl
  | word before text span ih => simp [account, lexemes, ih]
  | element before opening inner closing ihBefore ihInner =>
    simp [account, lexemes, ihBefore, ihInner, opening.map_account, Closing.account]

/-- Each token of markup can be what it is there for. -/
theorem fits_account (m : Markup) : ∀ entry ∈ m.account, entry.Fits := by
  induction m with
  | empty => exact List.forall_mem_nil _
  | word before text span ih =>
    exact List.forall_mem_append.mpr ⟨ih, List.forall_mem_singleton.mpr .word⟩
  | element before opening inner closing ihBefore ihInner =>
    have name : (node opening inner closing).name = opening.element.name := fill_name _ _
    have marked : (node opening inner closing).kind = .unknown ↔
        closing.name ≠ (node opening inner closing).name := OpenElement.toNode_kind_iff _ _
    simp only [account, List.forall_mem_append, List.forall_mem_singleton]
    exact ⟨ihBefore, ⟨opening.fits_account name, ihInner⟩, closing.fits_account fun _ => marked⟩

/-- All that is reported of markup is told in its account, in order. -/
theorem warnings_account (m : Markup) : m.account.filterMap Entry.warning? = m.warnings := by
  induction m with
  | empty => rfl
  | word before text span ih =>
    rw [account, List.filterMap_append, ih]
    exact List.append_nil _
  | element before opening inner closing ihBefore ihInner =>
    have name : (node opening inner closing).name = opening.element.name := fill_name _ _
    simp only [account, List.filterMap_append, warnings, ihBefore, ihInner,
      opening.warnings_account, closing.warnings_account, name]

end Markup

/-- What each element gives can be told from the account of its tags, and texts give nothing. The
begin tags, the brackets behind them, the close tags and the attributes are four cases of this, and
`Told.gather_fill` is proved for all of them at once. -/
structure Told {α : Type u} (before behind : Node → List α) (f : Entry → Option α) : Prop where
  silent : ∀ n : Node, n.kind = .text → before n = [] ∧ behind n = []
  word : ∀ lexeme, f ⟨lexeme, .word⟩ = none
  opening : ∀ (o : Opening) (e : Node), e.kind ≠ .text → e.attributes = o.element.attributes →
    (o.account e).filterMap f = before e
  closing : ∀ (c : Closing) (e : Node), e.kind ≠ .text → (f (c.account e)).toList = behind e

namespace Told

variable {α : Type u} {before behind : Node → List α} {f : Entry → Option α}

/-- What one more element gives: what its begin tag tells, then what is inside it, then what its
close tag tells. -/
theorem element (told : Told before behind f) (opening : Opening) (inner : List Entry)
    (closing : Closing) {e : Node} (kind : e.kind ≠ .text)
    (attributes : e.attributes = opening.element.attributes)
    (below : e.children.flatMap (Node.gather before behind) = inner.filterMap f) :
    (opening.account e ++ inner ++ [closing.account e]).filterMap f = e.gather before behind := by
  have closed : [closing.account e].filterMap f = behind e := by
    rw [← told.closing closing e kind]
    cases h : f (closing.account e) <;> simp [h]
  rw [Node.gather_eq, List.filterMap_append, List.filterMap_append, closed, below,
    told.opening opening e kind attributes]

/-- **What the elements of markup give is told in its account**, in the same order. -/
theorem gather_fill (told : Told before behind f) (m : Markup) (e : OpenElement) :
    (m.fill e).gather before behind = e.gather before behind ++ m.account.filterMap f := by
  induction m generalizing e with
  | empty => exact (List.append_nil _).symm
  | word before' text span ih =>
    rw [Markup.fill, OpenElement.gather_pushText _ _ _ _ told.silent, ih, Markup.account,
      List.filterMap_append, List.filterMap_cons, told.word]
    simp
  | element before' opening inner closing ihBefore ihInner =>
    have given := told.element (e := Markup.node opening inner closing) opening inner.account
      closing (OpenElement.toNode_ne_text _ _) (Markup.fill_attributes _ _)
      (ihInner opening.element)
    rw [Markup.fill, OpenElement.gather_push, ihBefore, Markup.account, List.filterMap_append,
      given, List.append_assoc]
    rfl

end Told

/-- What is told once in every begin tag and nowhere else tells the elements in order. -/
theorem told_once {f : Entry → Option Node} (word : ∀ lexeme, f ⟨lexeme, .word⟩ = none)
    (part : ∀ lexeme a place, f ⟨lexeme, .part a place⟩ = none)
    (skipped : ∀ lexeme, f ⟨lexeme, .skipped⟩ = none)
    (closes : ∀ lexeme e, f ⟨lexeme, .closes e⟩ = none)
    (once : ∀ first last e,
      (f ⟨first, .begins e⟩).toList ++ (f ⟨last, .ends e⟩).toList = [e]) :
    Told Node.asElement (fun _ => []) f where
  silent _ text := ⟨Node.asElement_eq_nil text, rfl⟩
  word := word
  opening o e kind _ := by
    rw [o.filterMap_account e part skipped, once, Node.asElement_eq kind]
  closing c e _ := by
    rw [Closing.account, closes]
    rfl

theorem told_begun : Told Node.asElement (fun _ => []) Entry.begun? :=
  told_once (fun _ => rfl) (fun _ _ _ => rfl) (fun _ => rfl) (fun _ _ => rfl) fun _ _ _ => rfl

theorem told_ended : Told Node.asElement (fun _ => []) Entry.ended? :=
  told_once (fun _ => rfl) (fun _ _ _ => rfl) (fun _ => rfl) (fun _ _ => rfl) fun _ _ _ => rfl

/-- The close tags tell the elements in the other order. -/
theorem told_closed : Told (fun _ => []) Node.asElement Entry.closed? where
  silent _ text := ⟨rfl, Node.asElement_eq_nil text⟩
  word _ := rfl
  opening o e _ _ := o.filterMap_account e (fun _ _ _ => rfl) fun _ => rfl
  closing _ _ kind := (Node.asElement_eq kind).symm

/-- The attributes are told in the begin tags, with their five places. -/
theorem told_parts : Told (fun n => n.asElement.flatMap Node.places) (fun _ => []) Entry.part? where
  silent n text := ⟨by rw [Node.asElement_eq_nil text]; rfl, rfl⟩
  word _ := rfl
  opening o e kind attributes := by
    rw [o.parts_account attributes, Node.asElement_eq kind]
    exact (List.append_nil _).symm
  closing _ _ _ := rfl

/-! ## Outside of begin tags -/

/-- What is met outside of begin tags. -/
inductive Item where
  /-- a begin tag, with all that stands in it -/
  | tag (literal : String) (run : List Lexeme)
  | word (text : String)

/-- The begin tag that is met. -/
def Item.tag? : Item → Option (String × List Lexeme)
  | tag literal run => some (literal, run)
  | word _ => none

/-- The word that is met. -/
def Item.word? : Item → Option String
  | tag _ _ => none
  | word text => some text

/-- What is met in several tokens; the first of them stands inside a begin tag or not. -/
def scan : (inTag : Bool) → List Lexeme → List Item
  | _, [] => []
  | true, lexeme :: rest => scan (!lexeme.token.isEndTag) rest
  | false, ⟨.beginTag literal, _⟩ :: rest =>
    .tag literal (rest.takeWhile (!·.token.isEndTag)) :: scan true rest
  | false, ⟨.text word, _⟩ :: rest => .word word :: scan false rest
  | false, _ :: rest => scan false rest

/-- The words outside of begin tags. -/
def contentTexts (tokens : List Lexeme) : List String := (scan false tokens).filterMap Item.word?

/-- The begin tags, each with the tokens up to the bracket that ends it. -/
def beginTags (tokens : List Lexeme) : List (String × List Lexeme) :=
  (scan false tokens).filterMap Item.tag?

/-- What is met in markup. -/
def Markup.items : Markup → List Item
  | empty => []
  | word before text _ => before.items ++ [.word text]
  | element before opening inner _ =>
    before.items ++ .tag opening.literal opening.run :: inner.items

/-- A begin tag is met as one item, whatever stands in it, and behind its bracket the scan goes on
outside. -/
theorem scan_opening (o : Opening) (rest : List Lexeme) :
    scan false (o.lexemes ++ rest) = .tag o.literal o.run :: scan false rest := by
  have inside : ∀ lexeme ∈ o.run, (!lexeme.token.isEndTag) = true := by
    intro lexeme hlexeme
    cases token : lexeme.token with
    | endTag => exact absurd token (o.run_open lexeme hlexeme)
    | _ => rfl
  have ends : ∀ lexeme ∈ (⟨.endTag, o.bracket⟩ :: rest : List Lexeme).head?,
      (!lexeme.token.isEndTag) = false := by
    rintro _ ⟨⟩
    rfl
  have passed (run : List Lexeme) (inside : ∀ lexeme ∈ run, (!lexeme.token.isEndTag) = true) :
      scan true (run ++ ⟨.endTag, o.bracket⟩ :: rest) = scan false rest := by
    induction run with
    | nil => rfl
    | cons lexeme run ih =>
      obtain ⟨first, others⟩ := List.forall_mem_cons.mp inside
      rw [List.cons_append, scan, first]
      exact ih others
  simp only [Opening.lexemes, List.cons_append, List.append_assoc, List.nil_append, scan,
    takeWhile_run inside ends, passed o.run inside]

/-- Whatever the tokens behind it, what is met in markup is met. -/
theorem scan_lexemes (m : Markup) (rest : List Lexeme) :
    scan false (m.lexemes ++ rest) = m.items ++ scan false rest := by
  induction m generalizing rest with
  | empty => rfl
  | word before text span ih =>
    rw [Markup.lexemes, List.append_assoc, ih, Markup.items, List.append_assoc]
    rfl
  | element before opening inner closing ihBefore ihInner =>
    simp only [Markup.lexemes, Markup.items, List.append_assoc, List.cons_append, ihBefore,
      scan_opening, ihInner]
    rfl

/-- What is met in one element. -/
theorem scan_single (opening : Opening) (inner : Markup) (closing : Closing) :
    scan false (Markup.single opening inner closing).lexemes =
      .tag opening.literal opening.run :: inner.items := by
  rw [Markup.lexemes_single, List.append_assoc, scan_opening, scan_lexemes]
  exact congrArg _ (List.append_nil _)

/-- The words in the account of markup are those that are met. -/
theorem Markup.words_account (m : Markup) :
    m.account.filterMap Entry.word? = m.items.filterMap Item.word? := by
  induction m with
  | empty => rfl
  | word before text span ih =>
    rw [account, items, List.filterMap_append, List.filterMap_append, ih]
    rfl
  | element before opening inner closing ihBefore ihInner =>
    have opened (e : Node) : (opening.account e).filterMap Entry.word? = [] :=
      opening.filterMap_account e (fun _ _ _ => rfl) fun _ => rfl
    simp only [account, items, List.filterMap_append, List.filterMap_cons, opened, ihBefore,
      ihInner, Item.word?]
    simp [Closing.account, Entry.word?]

/-- The words of one element stand inside it. -/
theorem contentTexts_single (opening : Opening) (inner : Markup) (closing : Closing) :
    contentTexts (Markup.single opening inner closing).lexemes =
      inner.account.filterMap Entry.word? := by
  rw [contentTexts, scan_single, inner.words_account]
  rfl

namespace Markup

/-- **The words of markup are what the texts say that are made of it**, if they are all said
together. Words become one text or several, depending on the elements between them, so this cannot
be said of the texts one by one; and the induction needs to know what is in the open element
already. -/
theorem join_bareTexts_fill (m : Markup) {e : OpenElement} (bare : e.TextsAreBare) :
    String.join (m.fill e).bareTexts =
      String.join e.bareTexts ++ String.join (m.account.filterMap Entry.word?) := by
  induction m generalizing e with
  | empty => exact (String.append_empty).symm
  | word before text span ih =>
    rw [fill, OpenElement.join_bareTexts_pushText (before.textsAreBare_fill bare), ih bare, account,
      List.filterMap_append, String.join_append, String.append_assoc]
    simp [Entry.word?, Token.literal]
  | element before opening inner closing ihBefore ihInner =>
    have opened : (opening.account (node opening inner closing)).filterMap Entry.word? = [] :=
      opening.filterMap_account _ (fun _ _ _ => rfl) fun _ => rfl
    have said : (node opening inner closing).bareTexts = (inner.fill opening.element).bareTexts :=
      Node.bareTexts_eq (OpenElement.toNode_ne_text _ _)
    have pushed : (fill (.element before opening inner closing) e).bareTexts =
        (before.fill e).bareTexts ++ (node opening inner closing).bareTexts :=
      OpenElement.gather_push _ _ _ _
    have inside : String.join (inner.fill opening.element).bareTexts =
        String.join (inner.account.filterMap Entry.word?) := by
      rw [ihInner opening.textsAreBare_element]
      exact String.empty_append
    rw [pushed, said, String.join_append, ihBefore bare, inside, account, List.filterMap_append,
      List.filterMap_append, List.filterMap_append, opened, List.nil_append, String.join_append,
      String.join_append, String.append_assoc]
    exact congrArg _ (congrArg _ String.append_empty.symm)

end Markup

/-! ## The account of a document -/

namespace Document

/-- **A complete account of the tokens of a document.** -/
structure Accounts (document : Document) (tokens : List Lexeme) (entries : List Entry) : Prop where
  /-- there is one entry for each token, in order -/
  lexemes : entries.map Entry.lexeme = tokens
  /-- every token can be what it is there for -/
  fits : ∀ entry ∈ entries, entry.Fits
  /-- every element has one begin tag, and there are no other begin tags -/
  begun : entries.filterMap Entry.begun? = document.root.elements
  /-- every begin tag is ended once -/
  ended : entries.filterMap Entry.ended? = document.root.elements
  /-- every element is closed once -/
  closed : entries.filterMap Entry.closed? = document.root.closings
  /-- every attribute has its five tokens -/
  parts : entries.filterMap Entry.part? = document.root.elements.flatMap Node.places
  /-- the words are the texts outside of begin tags -/
  words : entries.filterMap Entry.word? = contentTexts tokens
  /-- what is reported is reported of one token each, and all that is skipped is reported -/
  warnings : entries.filterMap Entry.warning? = document.warnings

/-- The account of a document that is one element. Its root is an element like those inside it but
for the kind, so it is accounted for by itself and the rest by the lemmas for markup. -/
theorem accounts_ofElement (opening : Opening) (inner : Markup) (closing : Closing) :
    let document := ofElement opening inner closing
    document.Accounts (Markup.single opening inner closing).lexemes
      (opening.account document.root ++ inner.account ++ [closing.account document.root]) := by
  intro document
  have kind : document.root.kind ≠ .text := nofun
  have name : document.root.name = opening.element.name := Markup.fill_name _ _
  have attributes : document.root.attributes = opening.element.attributes :=
    Markup.fill_attributes _ _
  have told {α : Type} {before behind : Node → List α} {f : Entry → Option α}
      (told : Told before behind f) :
      (opening.account document.root ++ inner.account ++
        [closing.account document.root]).filterMap f = document.root.gather before behind :=
    told.element opening inner.account closing kind attributes
      (told.gather_fill inner opening.element)
  refine ⟨?_, ?_, told told_begun, told told_ended, told told_closed, ?_, ?_, ?_⟩
  · simp [opening.map_account, inner.map_account, Closing.account]
  · simp only [List.forall_mem_append, List.forall_mem_singleton]
    exact ⟨⟨opening.fits_account name, inner.fits_account⟩,
      closing.fits_account fun other => absurd rfl other⟩
  · rw [told told_parts, Node.elements, Node.flatMap_gather]
    rfl
  · have opened : (opening.account document.root).filterMap Entry.word? = [] :=
      opening.filterMap_account _ (fun _ _ _ => rfl) fun _ => rfl
    rw [contentTexts_single, List.filterMap_append, List.filterMap_append, opened]
    exact List.append_nil _
  · rw [List.filterMap_append, List.filterMap_append, opening.warnings_account,
      inner.warnings_account, closing.warnings_account, name]
    rfl

/-- The tokens of a document, counted: three for every element, five for every attribute, one for
every word, and those that were skipped. -/
theorem Accounts.length_eq {document : Document} {tokens : List Lexeme} {entries : List Entry}
    (accounts : document.Accounts tokens entries) :
    tokens.length = 3 * document.root.elements.length +
      5 * (document.root.elements.flatMap Node.attributes).length +
      (contentTexts tokens).length +
      (document.warnings.filter SyntaxWarning.isSkipped).length := by
  have places (attributes : List Attribute) :
      (attributes.flatMap Attribute.places).length = 5 * attributes.length := by
    simp [List.length_flatMap, Attribute.places, Nat.mul_comm]
  have parts : (document.root.elements.flatMap Node.places).length =
      5 * (document.root.elements.flatMap Node.attributes).length := by
    rw [← places, List.flatMap_assoc]
    rfl
  rw [← accounts.lexemes, List.length_map, length_entries, accounts.begun, accounts.ended,
    accounts.closed, accounts.parts, accounts.words, accounts.warnings, accounts.lexemes, parts,
    (Node.closings_perm _).length_eq]
  omega

/-- **No token is lost.** Every token before the end of a document that is read is there for one
thing, and everything in its tree and its warnings has its tokens. So the tokens can be counted, the
words are those of the texts in the tree, and the wrong close tags are those of the marked elements
and perhaps of the root, which is closed last. -/
theorem accounted {lexemes : List Lexeme} {document : Document}
    (read : ofLexemes lexemes = .ok document) :
    let tokens := lexemes.takeWhile (!·.token.isEof)
    let root := document.root
    (∃ entries, document.Accounts tokens entries) ∧
    root.closings.Perm root.elements ∧
    tokens.length = 3 * root.elements.length +
      5 * (root.elements.flatMap Node.attributes).length + (contentTexts tokens).length +
      (document.warnings.filter SyntaxWarning.isSkipped).length ∧
    String.join (contentTexts tokens) = String.join root.bareTexts ∧
    ∃ before literal span, tokens = before ++ [⟨.closeTag literal, span⟩] ∧
      document.mismatches = (root.closings.filter (·.kind = .unknown)).map Node.name ++
        if closeTagName literal = root.name then [] else [root.name] := by
  intro tokens root
  obtain ⟨opening, inner, closing, written, -, rfl⟩ := ofLexemes_eq_ok_iff.mp read
  have accounts := accounts_ofElement opening inner closing
  have name : root.name = opening.element.name := Markup.fill_name _ _
  rw [written] at accounts
  refine ⟨⟨_, accounts⟩, root.closings_perm, accounts.length_eq, ?_, ?_⟩
  · have said : root.bareTexts = (inner.fill opening.element).bareTexts :=
      Node.bareTexts_eq (nofun : NodeKind.root ≠ .text)
    have heard := inner.join_bareTexts_fill opening.textsAreBare_element
    have words : contentTexts tokens = inner.account.filterMap Entry.word? := by
      rw [← contentTexts_single opening inner closing, written]
    rw [words, said, heard]
    exact String.empty_append.symm
  · refine ⟨opening.lexemes ++ inner.lexemes, closing.literal, closing.span, written.symm, ?_⟩
    rw [mismatches_ofElement, Node.unknowns_eq_closings, name]
    rfl

/-- An attribute and a stray word, texts of three words, and an element that is closed by another
name: what the tree and the warnings have makes up for all sixteen tokens. -/
theorem accounted_of_two :
    let lexemes := tokenize "<a x=\"1\" y>s t<b>u</c></a>"
    let tokens := lexemes.takeWhile (!·.token.isEof)
    ∃ document, ofLexemes lexemes = .ok document ∧
      (∃ entries, document.Accounts tokens entries) ∧
      tokens.length = 3 * 2 + 5 * 1 + 3 + 1 ∧ String.join document.root.bareTexts = "stu" ∧
      document.mismatches = ["b"] := by
  intro lexemes tokens
  have parsed : ∃ document, ofLexemes lexemes = .ok document ∧
      document.root.elements.length = 2 ∧
      (document.root.elements.flatMap Node.attributes).length = 1 ∧
      (document.warnings.filter SyntaxWarning.isSkipped).length = 1 ∧
      (document.root.closings.filter (·.kind = .unknown)).map Node.name = ["b"] ∧
      document.root.name = "a" :=
    exists_of_toOption_any (by decide +kernel)
  obtain ⟨document, read, elements, attributes, skipped, unknown, name⟩ := parsed
  have words : contentTexts tokens = ["s", "t", "u"] := by decide +kernel
  have closed : tokens.getLast?.map (·.token) = some (.closeTag "</a>") := by decide +kernel
  obtain ⟨accounts, -, counted, joined, before, literal, span, split, mismatched⟩ := accounted read
  refine ⟨document, read, accounts, ?_, ?_, ?_⟩
  · rw [counted, elements, attributes, skipped, words]
    rfl
  · rw [← joined, words]
    rfl
  · -- the close tag of the root is the last token
    have split : tokens = before ++ [⟨.closeTag literal, span⟩] := split
    rw [split, List.getLast?_concat] at closed
    obtain rfl : literal = "</a>" := by simpa using closed
    rw [mismatched, unknown, name]
    rfl

end Document

end StateMarkup
