import CommitReports.Proofs.Toml.Keys
import CommitReports.Settings.Basic
import Mathlib

/-!
# Which documents give settings

A document gives settings if the two addresses are there, each field that is there has
its type, and the contents pass their checks; every field is then what was given for it,
or its default (`Drafted`, `Valid`). Any other document is refused for the first fault in
a fixed order (`Refuses`): a wrong type, as the fields stand in the document, then a
missing address, then the contents, field by field.

Both are said of the entries of the document as they stand there, not of looking fields
up: as each key stands once (`Toml.distinct_of_parse?`), the value found for a field is
the one given for it (`holds_textAt`, `holds_flagAt`). Keys that name no field take no
part (`ofEntries_named`).
-/

namespace CommitReports.Settings

open Toml

variable {entries : Entries} {e : SettingsError} {s : Settings}

/-! ## What settings a document gives -/

/-- The value has the type. -/
inductive HasType : FieldType → Value → Prop where
  | text (t : String) : HasType .text (.string t)
  | path (t : String) : HasType .path (.string t)
  | boolean (b : Bool) : HasType .boolean (.boolean b)

/-- Each field that is given has its type. -/
def WellTyped (entries : Entries) : Prop :=
  ∀ key value, (key, value) ∈ entries → ∀ type, (key, type) ∈ fieldTypes → HasType type value

/-- The field is not given. -/
def Absent (entries : Entries) (field : String) : Prop := ∀ value, (field, value) ∉ entries

/-- What a field is: what was given for it, or its default if nothing was. -/
def GivenOr {α : Type} (entries : Entries) (field : String) (make : α → Value) (default x : α) :
    Prop :=
  (field, make x) ∈ entries ∨ Absent entries field ∧ x = default

/-- The settings are what the document says, field by field. -/
structure Drafted (entries : Entries) (s : Settings) : Prop where
  types : WellTyped entries
  sender : ("sender", .string s.sender) ∈ entries
  recipient : ("recipient", .string s.recipient) ∈ entries
  transportCommand : GivenOr entries "transport_command" .string "sendmail -t" s.transportCommand
  debugLogging : GivenOr entries "debug_logging" .boolean false s.debugLogging
  repository : GivenOr entries "repository" .string "." s.repository
  remote : GivenOr entries "remote" .string "origin" s.remote
  stateFile : GivenOr entries "state_file" .string ".announcer.lastcommit" s.stateFile
  checkoutBranches : GivenOr entries "checkout_branches" .boolean false s.checkoutBranches

/-- The text has an at sign, as a mail address does. -/
def IsAddress (text : String) : Prop := '@' ∈ text.toList

/-- The text is more than white space. -/
def IsFilled (text : String) : Prop := ∃ c ∈ text.toList, ¬Text.isBlank c = true

/-- The contents of the settings pass their checks. -/
structure Valid (s : Settings) : Prop where
  sender : IsAddress s.sender
  recipient : IsAddress s.recipient
  transportCommand : IsFilled s.transportCommand
  remote : IsFilled s.remote

/-- What a document is refused for: its first fault. -/
inductive Refuses (entries : Entries) : SettingsError → Prop where
  | mistyped {before after : Entries} {key : String} {value : Value} {type : FieldType} :
      entries = before ++ (key, value) :: after → WellTyped before →
      (key, type) ∈ fieldTypes → ¬HasType type value →
      Refuses entries (.mistyped value.describe type.describe)
  | noSender : WellTyped entries → Absent entries "sender" → Refuses entries (.missing "sender")
  | noRecipient {text : String} : WellTyped entries → ("sender", .string text) ∈ entries →
      Absent entries "recipient" → Refuses entries (.missing "recipient")
  | badSender {s : Settings} : Drafted entries s → ¬IsAddress s.sender →
      Refuses entries (.noAddress "sender" s.sender)
  | badRecipient {s : Settings} : Drafted entries s → IsAddress s.sender →
      ¬IsAddress s.recipient → Refuses entries (.noAddress "recipient" s.recipient)
  | blankCommand {s : Settings} : Drafted entries s → IsAddress s.sender → IsAddress s.recipient →
      ¬IsFilled s.transportCommand → Refuses entries (.blank "transport_command")
  | blankRemote {s : Settings} : Drafted entries s → IsAddress s.sender → IsAddress s.recipient →
      IsFilled s.transportCommand → ¬IsFilled s.remote → Refuses entries (.blank "remote")

/-! ## Types -/

theorem fits_iff {type : FieldType} {value : Value} : type.fits value = true ↔ HasType type value := by
  constructor
  · intro h
    unfold FieldType.fits at h
    split at h
    · exact .text _
    · exact .path _
    · exact .boolean _
    · cases h
  · rintro (_ | _ | _) <;> rfl

theorem distinct_fieldTypes : Distinct fieldTypes := by
  unfold Distinct
  decide

/-- A key is at fault if it names a field and its value does not have the field's type. -/
theorem typeFault_eq_some_iff {key : String} {value : Value} :
    typeFault key value = some e ↔ ∃ type, (key, type) ∈ fieldTypes ∧ ¬HasType type value ∧
      e = .mistyped value.describe type.describe := by
  simp only [← lookup_eq_some_iff distinct_fieldTypes, ← fits_iff, typeFault]
  cases fieldTypes.lookup key with
  | none => simp
  | some type =>
    dsimp only
    split
    next hfits =>
      simp only [Option.some.injEq, reduceCtorEq, false_iff]
      rintro ⟨other, hother, hnot, -⟩
      cases hother
      exact hnot hfits
    next hfits =>
      constructor
      · intro h
        cases h
        exact ⟨type, rfl, hfits, rfl⟩
      · rintro ⟨other, hother, -, rfl⟩
        cases hother
        rfl

theorem typeFault_eq_none_iff {key : String} {value : Value} :
    typeFault key value = none ↔ ∀ type, (key, type) ∈ fieldTypes → HasType type value := by
  rw [← not_iff_not, ← Ne, Option.ne_none_iff_exists']
  simp only [typeFault_eq_some_iff]
  push Not
  constructor
  · rintro ⟨e, type, hkey, hvalue, -⟩
    exact ⟨type, hkey, hvalue⟩
  · rintro ⟨type, hkey, hvalue⟩
    exact ⟨_, type, hkey, hvalue, rfl⟩

/-- The first fault of the types, over all entries. -/
theorem findSome?_typeFault_eq_none_iff :
    (entries.findSome? fun (key, value) => typeFault key value) = none ↔ WellTyped entries := by
  rw [List.findSome?_eq_none_iff]
  simp only [typeFault_eq_none_iff]
  exact ⟨fun h key value hmem => h (key, value) hmem, fun h entry hmem => h _ _ hmem⟩

/-! ## Fields -/

/-- What is found for a field is what is given for it. -/
structure Holds {α : Type} (entries : Entries) (field : String) (make : α → Value)
    (found : Option α) : Prop where
  given : ∀ x, found = some x ↔ (field, make x) ∈ entries
  absent : found = none ↔ Absent entries field

theorem Holds.getD_eq_iff {α : Type} {field : String} {make : α → Value} {found : Option α}
    {default x : α} (h : Holds entries field make found) :
    found.getD default = x ↔ GivenOr entries field make default x := by
  unfold GivenOr
  rw [← h.given, ← h.absent]
  cases found with
  | none => simp [eq_comm]
  | some y => simp

/-- What is found for a field is what is given for it, if it is read off the one value there. -/
theorem Holds.of_lookup {α : Type} {field : String} {make : α → Value} {found : Option α}
    (hd : Distinct entries) (hmake : Function.Injective make)
    (hvalue : ∀ value, (field, value) ∈ entries → ∃ x, value = make x)
    (hnone : entries.lookup field = none → found = none)
    (hsome : ∀ x, entries.lookup field = some (make x) → found = some x) :
    Holds entries field make found := by
  cases hlookup : entries.lookup field with
  | none =>
    have habsent := lookup_eq_none_iff.mp hlookup
    rw [hnone hlookup]
    exact ⟨fun x => iff_of_false nofun (habsent _), iff_of_true rfl habsent⟩
  | some value =>
    have hmem := (lookup_eq_some_iff hd).mp hlookup
    obtain ⟨x, rfl⟩ := hvalue value hmem
    rw [hsome x hlookup]
    refine ⟨fun y => ?_, iff_of_false nofun fun habsent => habsent _ hmem⟩
    rw [← lookup_eq_some_iff hd, hlookup, Option.some.injEq, Option.some.injEq, hmake.eq_iff]

section Typed

variable {field : String} (hd : Distinct entries) (ht : WellTyped entries)

include hd ht

theorem holds_textAt {type : FieldType} (hfield : (field, type) ∈ fieldTypes)
    (htype : type ≠ .boolean) : Holds entries field .string (textAt entries field) := by
  refine .of_lookup hd (fun _ _ h => Value.string.inj h) (fun value hmem => ?_) ?_ ?_
  · cases ht field value hmem type hfield with
    | text t => exact ⟨t, rfl⟩
    | path t => exact ⟨t, rfl⟩
    | boolean => exact absurd rfl htype
  · intro hlookup
    rw [textAt, hlookup]
  · intro x hlookup
    rw [textAt, hlookup]

theorem holds_flagAt (hfield : (field, .boolean) ∈ fieldTypes) :
    Holds entries field .boolean (flagAt entries field) := by
  refine .of_lookup hd (fun _ _ h => Value.boolean.inj h) (fun value hmem => ?_) ?_ ?_
  · cases ht field value hmem .boolean hfield with
    | boolean b => exact ⟨b, rfl⟩
  · intro hlookup
    rw [flagAt, hlookup]
  · intro x hlookup
    rw [flagAt, hlookup]

theorem holds_sender : Holds entries "sender" .string (textAt entries "sender") :=
  holds_textAt hd ht (show ("sender", FieldType.text) ∈ fieldTypes by decide) nofun

theorem holds_recipient : Holds entries "recipient" .string (textAt entries "recipient") :=
  holds_textAt hd ht (show ("recipient", FieldType.text) ∈ fieldTypes by decide) nofun

/-- What is gathered is what the document says. -/
theorem gather_eq_ok_iff : gather entries = .ok s ↔ Drafted entries s := by
  have hsender := holds_sender hd ht
  have hrecipient := holds_recipient hd ht
  have hcommand := holds_textAt hd ht
    (show ("transport_command", FieldType.text) ∈ fieldTypes by decide) nofun
  have hdebug := holds_flagAt hd ht (show ("debug_logging", FieldType.boolean) ∈ fieldTypes by decide)
  have hrepository := holds_textAt hd ht
    (show ("repository", FieldType.path) ∈ fieldTypes by decide) nofun
  have hremote := holds_textAt hd ht (show ("remote", FieldType.text) ∈ fieldTypes by decide) nofun
  have hstate := holds_textAt hd ht
    (show ("state_file", FieldType.path) ∈ fieldTypes by decide) nofun
  have hcheckout := holds_flagAt hd ht
    (show ("checkout_branches", FieldType.boolean) ∈ fieldTypes by decide)
  constructor
  · intro h
    unfold gather at h
    split at h
    next => cases h
    next => cases h
    next from_ to_ hfrom hto =>
      cases h
      exact {
        types := ht
        sender := (hsender.given _).mp hfrom
        recipient := (hrecipient.given _).mp hto
        transportCommand := hcommand.getD_eq_iff.mp rfl
        debugLogging := hdebug.getD_eq_iff.mp rfl
        repository := hrepository.getD_eq_iff.mp rfl
        remote := hremote.getD_eq_iff.mp rfl
        stateFile := hstate.getD_eq_iff.mp rfl
        checkoutBranches := hcheckout.getD_eq_iff.mp rfl }
  · intro h
    have hfrom := (hsender.given _).mpr h.sender
    have hto := (hrecipient.given _).mpr h.recipient
    unfold gather
    rw [hfrom, hto]
    simp only [hcommand.getD_eq_iff.mpr h.transportCommand, hdebug.getD_eq_iff.mpr h.debugLogging,
      hrepository.getD_eq_iff.mpr h.repository, hremote.getD_eq_iff.mpr h.remote,
      hstate.getD_eq_iff.mpr h.stateFile, hcheckout.getD_eq_iff.mpr h.checkoutBranches]

/-- Nothing is gathered where an address is missing. -/
theorem gather_eq_error_iff :
    gather entries = .error e ↔
      Absent entries "sender" ∧ e = .missing "sender" ∨
        (∃ text, ("sender", .string text) ∈ entries) ∧ Absent entries "recipient" ∧
          e = .missing "recipient" := by
  have hsender := holds_sender hd ht
  have hrecipient := holds_recipient hd ht
  simp only [← hsender.given, ← hsender.absent, ← hrecipient.absent]
  unfold gather
  rcases textAt entries "sender" with _ | from_
  · simp [eq_comm]
  · rcases textAt entries "recipient" with _ | to_
    · simp [eq_comm]
    · simp

end Typed

/-! ## Contents -/

theorem isAddress_iff {text : String} : text.contains '@' = true ↔ IsAddress text := by
  rw [String.contains_char_eq]
  simp [IsAddress]

theorem isFilled_iff {text : String} : Text.allBlank text = false ↔ IsFilled text := by
  simp [Text.allBlank, IsFilled]

theorem fault_eq_none_iff : s.fault = none ↔ Valid s := by
  have hvalid : Valid s ↔ IsAddress s.sender ∧ IsAddress s.recipient ∧
      IsFilled s.transportCommand ∧ IsFilled s.remote :=
    ⟨fun h => ⟨h.sender, h.recipient, h.transportCommand, h.remote⟩,
      fun ⟨h₁, h₂, h₃, h₄⟩ => ⟨h₁, h₂, h₃, h₄⟩⟩
  rw [hvalid, ← isAddress_iff, ← isAddress_iff, ← isFilled_iff, ← isFilled_iff, fault]
  cases s.sender.contains '@' <;> cases s.recipient.contains '@' <;>
    cases Text.allBlank s.transportCommand <;> cases Text.allBlank s.remote <;> simp

/-- The checks are made in order, and the first that fails counts. -/
theorem fault_eq_some_iff :
    s.fault = some e ↔
      ¬IsAddress s.sender ∧ e = .noAddress "sender" s.sender ∨
      IsAddress s.sender ∧ ¬IsAddress s.recipient ∧ e = .noAddress "recipient" s.recipient ∨
      IsAddress s.sender ∧ IsAddress s.recipient ∧ ¬IsFilled s.transportCommand ∧
        e = .blank "transport_command" ∨
      IsAddress s.sender ∧ IsAddress s.recipient ∧ IsFilled s.transportCommand ∧
        ¬IsFilled s.remote ∧ e = .blank "remote" := by
  rw [← isAddress_iff, ← isAddress_iff, ← isFilled_iff, ← isFilled_iff, fault]
  cases s.sender.contains '@' <;> cases s.recipient.contains '@' <;>
    cases Text.allBlank s.transportCommand <;> cases Text.allBlank s.remote <;> simp [eq_comm]

/-! ## The verdict -/

section Verdict

variable (hd : Distinct entries)

include hd

/-- **A document gives the settings that it says**, if they are valid. -/
theorem ofEntries_eq_ok_iff : ofEntries entries = .ok s ↔ Drafted entries s ∧ Valid s := by
  unfold ofEntries
  split
  next fault hfault =>
    refine iff_of_false nofun fun h => ?_
    rw [findSome?_typeFault_eq_none_iff.mpr h.1.types] at hfault
    cases hfault
  next hnone =>
    have ht := findSome?_typeFault_eq_none_iff.mp hnone
    rw [← gather_eq_ok_iff hd ht, ← fault_eq_none_iff]
    cases gather entries with
    | error e => exact iff_of_false nofun nofun
    | ok settings =>
      dsimp only
      split
      next fault hfault =>
        refine iff_of_false nofun ?_
        rintro ⟨hsame, hvalid⟩
        cases hsame
        rw [hvalid] at hfault
        cases hfault
      next hvalid =>
        constructor
        · intro hsame
          cases hsame
          exact ⟨rfl, hvalid⟩
        · rintro ⟨hsame, -⟩
          exact hsame

omit hd in
theorem ofEntries_of_gather_error (ht : WellTyped entries) (h : gather entries = .error e) :
    ofEntries entries = .error e := by
  rw [ofEntries, findSome?_typeFault_eq_none_iff.mpr ht, h]

theorem ofEntries_of_fault (hs : Drafted entries s) (h : s.fault = some e) :
    ofEntries entries = .error e := by
  rw [ofEntries, findSome?_typeFault_eq_none_iff.mpr hs.types,
    (gather_eq_ok_iff hd hs.types).mpr hs]
  dsimp only
  rw [h]

/-- **Any other document is refused for its first fault.** -/
theorem ofEntries_eq_error_iff : ofEntries entries = .error e ↔ Refuses entries e := by
  constructor
  · intro h
    unfold ofEntries at h
    split at h
    next fault hfault =>
      cases h
      obtain ⟨before, ⟨key, value⟩, after, hsplit, hfault, hbefore⟩ :=
        List.findSome?_eq_some_iff.mp hfault
      obtain ⟨type, hkey, hvalue, rfl⟩ := typeFault_eq_some_iff.mp hfault
      have ht := findSome?_typeFault_eq_none_iff.mp (List.findSome?_eq_none_iff.mpr hbefore)
      exact .mistyped hsplit ht hkey hvalue
    next hnone =>
    have ht := findSome?_typeFault_eq_none_iff.mp hnone
    split at h
    next missing hgather =>
      cases h
      obtain ⟨hsender, rfl⟩ | ⟨⟨text, hsender⟩, hrecipient, rfl⟩ :=
        (gather_eq_error_iff hd ht).mp hgather
      · exact .noSender ht hsender
      · exact .noRecipient ht hsender hrecipient
    next settings hgather =>
    have hs := (gather_eq_ok_iff hd ht).mp hgather
    split at h
    next fault hfault =>
      cases h
      obtain ⟨hsender, rfl⟩ | ⟨hsender, hrecipient, rfl⟩ | ⟨hsender, hrecipient, hcommand, rfl⟩ |
        ⟨hsender, hrecipient, hcommand, hremote, rfl⟩ := fault_eq_some_iff.mp hfault
      · exact .badSender hs hsender
      · exact .badRecipient hs hsender hrecipient
      · exact .blankCommand hs hsender hrecipient hcommand
      · exact .blankRemote hs hsender hrecipient hcommand hremote
    next => cases h
  · intro h
    cases h with
    | mistyped hsplit hbefore hkey hvalue =>
      have hfault := typeFault_eq_some_iff.mpr ⟨_, hkey, hvalue, rfl⟩
      have hnone := List.findSome?_eq_none_iff.mp (findSome?_typeFault_eq_none_iff.mpr hbefore)
      rw [ofEntries, List.findSome?_eq_some_iff.mpr ⟨_, _, _, hsplit, hfault, hnone⟩]
    | noSender ht hsender =>
      exact ofEntries_of_gather_error ht ((gather_eq_error_iff hd ht).mpr (.inl ⟨hsender, rfl⟩))
    | noRecipient ht hsender hrecipient =>
      exact ofEntries_of_gather_error ht
        ((gather_eq_error_iff hd ht).mpr (.inr ⟨⟨_, hsender⟩, hrecipient, rfl⟩))
    | badSender hs hsender =>
      exact ofEntries_of_fault hd hs (fault_eq_some_iff.mpr (.inl ⟨hsender, rfl⟩))
    | badRecipient hs hsender hrecipient =>
      exact ofEntries_of_fault hd hs (fault_eq_some_iff.mpr (.inr (.inl ⟨hsender, hrecipient, rfl⟩)))
    | blankCommand hs hsender hrecipient hcommand =>
      exact ofEntries_of_fault hd hs
        (fault_eq_some_iff.mpr (.inr (.inr (.inl ⟨hsender, hrecipient, hcommand, rfl⟩))))
    | blankRemote hs hsender hrecipient hcommand hremote =>
      exact ofEntries_of_fault hd hs
        (fault_eq_some_iff.mpr (.inr (.inr (.inr ⟨hsender, hrecipient, hcommand, hremote, rfl⟩))))

end Verdict

/-! ## Keys that name no field -/

/-- The key names a field. -/
def isNamed (key : String) : Bool := (fieldTypes.map (·.1)).contains key

/-- The entries whose keys name fields, in order. -/
def named (entries : Entries) : Entries := entries.filter fun entry => isNamed entry.1

theorem typeFault_of_not_named {key : String} (value : Value) (h : ¬isNamed key = true) :
    typeFault key value = none := by
  rw [typeFault_eq_none_iff]
  intro type hmem
  have hnamed : isNamed key = true := List.contains_iff_mem.mpr (List.mem_map.mpr ⟨_, hmem, rfl⟩)
  exact absurd hnamed h

/-- A field has the same value among the named entries. -/
theorem lookup_named {field : String} (h : isNamed field = true) (entries : Entries) :
    (named entries).lookup field = entries.lookup field := by
  unfold named
  induction entries with
  | nil => rfl
  | cons entry rest ih =>
    obtain ⟨k, v⟩ := entry
    by_cases hk : field = k
    · subst hk
      rw [List.filter_cons, if_pos h, List.lookup_cons_self, List.lookup_cons_self]
    · have hne : (field == k) = false := by simpa using hk
      rw [List.lookup_cons, hne, ← ih, List.filter_cons]
      by_cases hnamed : isNamed k = true
      · rw [if_pos hnamed, List.lookup_cons, hne]
      · rw [if_neg hnamed]

theorem findSome?_named (entries : Entries) :
    ((named entries).findSome? fun (key, value) => typeFault key value) =
      entries.findSome? fun (key, value) => typeFault key value := by
  unfold named
  induction entries with
  | nil => rfl
  | cons entry rest ih =>
    obtain ⟨k, v⟩ := entry
    rw [List.filter_cons]
    by_cases hnamed : isNamed k = true
    · rw [if_pos hnamed, List.findSome?_cons, List.findSome?_cons, ih]
    · have hnone : typeFault k v = none := typeFault_of_not_named v hnamed
      simp only [if_neg hnamed, List.findSome?_cons, hnone, ih]

/-- **Keys that name no field take no part**, whatever they hold and wherever they stand. -/
theorem ofEntries_named (entries : Entries) : ofEntries (named entries) = ofEntries entries := by
  have htext : ∀ field, isNamed field = true →
      textAt (named entries) field = textAt entries field := by
    intro field hfield
    rw [textAt, textAt, lookup_named hfield]
  have hflag : ∀ field, isNamed field = true →
      flagAt (named entries) field = flagAt entries field := by
    intro field hfield
    rw [flagAt, flagAt, lookup_named hfield]
  have hgather : gather (named entries) = gather entries := by
    unfold gather
    rw [htext "sender" (by decide), htext "recipient" (by decide),
      htext "transport_command" (by decide), hflag "debug_logging" (by decide),
      htext "repository" (by decide), htext "remote" (by decide), htext "state_file" (by decide),
      hflag "checkout_branches" (by decide)]
  rw [ofEntries, ofEntries, findSome?_named, hgather]

/-! ## Whole documents -/

/-- **What a document gives, and which fault it is refused for.** Among all documents that can be
read, those whose fields are there, of their types and valid give settings, field by field what the
document says; each other one is refused for its first fault; and only the keys that name fields
count, in their order. -/
theorem parse_verdict {text : String} (h : Toml.parse? text = some entries) :
    (∀ s, parse text = .ok s ↔ Drafted entries s ∧ Valid s) ∧
    (∀ e, parse text = .error e ↔ Refuses entries e) ∧
    ∀ other otherEntries, Toml.parse? other = some otherEntries →
      named otherEntries = named entries → parse other = parse text := by
  have hparse : ∀ {text : String} {entries : Entries}, Toml.parse? text = some entries →
      parse text = ofEntries entries := by
    intro text entries h
    rw [parse, h]
  have hd := distinct_of_parse? h
  rw [hparse h]
  refine ⟨fun s => ofEntries_eq_ok_iff hd, fun e => ofEntries_eq_error_iff hd, ?_⟩
  intro other otherEntries hother hnamed
  rw [hparse hother, ← ofEntries_named otherEntries, hnamed, ofEntries_named]

/-- A document without a sender, with a recipient that is no address and two values of wrong types.
The address at its end stands in a table. -/
def faultyText : String :=
  "color = [1, 2]\nrecipient = \"nobody\"\nremote = 7\ndebug_logging = \"yes\"\n" ++
    "[mail]\nsender = \"dev@example.com\"\n"

/-- The same without the keys that name no field. -/
def faultyTextNamed : String := "recipient = \"nobody\"\nremote = 7\ndebug_logging = \"yes\"\n"

theorem parse_verdict_sample :
    let entries : Entries := [("color", .array [.integer 1, .integer 2]),
      ("recipient", .string "nobody"), ("remote", .integer 7), ("debug_logging", .string "yes"),
      ("mail", .table .header [("sender", .string "dev@example.com")])]
    Toml.parse? faultyText = some entries ∧
    parse faultyText = .error (.mistyped (Value.integer 7).describe "a string") ∧
    parse faultyTextNamed = parse faultyText := by
  intro entries
  have hparse : Toml.parse? faultyText = some entries := by cbv
  have hnamed : Toml.parse? faultyTextNamed = some (named entries) := by cbv
  obtain ⟨-, herror, hforeign⟩ := parse_verdict hparse
  refine ⟨hparse, (herror _).mpr ?_, hforeign _ _ hnamed (by cbv)⟩
  have hbefore : WellTyped (entries.take 2) := by
    rw [← findSome?_typeFault_eq_none_iff]
    decide
  have hremote : ¬HasType .text (.integer 7) := by
    rintro ⟨⟩
  exact .mistyped (entries.take_append_drop 2).symm hbefore
    (show ("remote", FieldType.text) ∈ fieldTypes by decide) hremote

end CommitReports.Settings
