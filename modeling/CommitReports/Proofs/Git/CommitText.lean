import CommitReports.Git.Authoring
import Mathlib

/-!
# Commits that are read back

A draft writes the text of a commit line by line, and the reader takes the lines off
again one after the other. So what a draft without further headers says is what is
read (`CommitInfo.read_text`): the tree, the parents in order, both signatures, and
the message up to its first NUL and without the line feeds in front of it.

Whatever text is read, what it gives is of the right form: an id is spelled by its own
digits (`ObjectStore.ofText?_of_mem_parents`), and a signature holds no line feed
(`ObjectStore.lineFeed_not_mem_author`).
-/

namespace CommitReports

/-- A digit in lower case is one, and stays as it is. -/
theorem Text.isHexDigit_toLower {c : Char} (h : isHexDigit c = true) :
    isHexDigit c.toLower = true ∧ c.toLower.toLower = c.toLower := by
  have hall : ∀ n < 128, isHexDigit (Char.ofNat n) = true →
      isHexDigit (Char.ofNat n).toLower = true ∧
        (Char.ofNat n).toLower.toLower = (Char.ofNat n).toLower := by decide
  have hbound : c.toNat < 128 := by
    simp only [isHexDigit, Char.isDigit, Bool.or_eq_true, Bool.and_eq_true, decide_eq_true_eq,
      Char.le_def, UInt32.le_iff_toNat_le] at h
    have hvalue : c.toNat = c.val.toNat := rfl
    simp at h
    omega
  have hself : Char.ofNat c.toNat = c := Char.ofNat_toNat c
  exact hself ▸ hall c.toNat hbound (hself.symm ▸ h)

namespace Git

/-! ## Texts as lists of bytes -/

private theorem drop_bytes {bytes : ByteArray} {i : Nat} (h : i < bytes.size) :
    bytes.data.toList.drop i = bytes.get! i :: bytes.data.toList.drop (i + 1) := by
  have hget : bytes.get! i = bytes.data[i] := getElem!_pos bytes.data i h
  rw [List.drop_eq_getElem_cons (by simpa using h), hget, Array.getElem_toList]

theorem toList_bytes (bytes : ByteArray) : bytes.toList = bytes.data.toList := by
  -- What the loop has taken stands reversed in front of what is left.
  have hloop : ∀ (i : Nat) (front : List UInt8),
      ByteArray.toList.loop bytes i front = front.reverse ++ bytes.data.toList.drop i := by
    intro i front
    fun_induction ByteArray.toList.loop bytes i front with
    | case1 i front hmore ih => rw [ih, drop_bytes hmore, List.reverse_cons, List.append_assoc]; rfl
    | case2 i front hend =>
      rw [List.drop_eq_nil_of_le (by simpa using hend), List.append_nil]
  rw [ByteArray.toList, hloop]
  rfl

theorem toList_append (a b : ByteArray) : (a ++ b).toList = a.toList ++ b.toList := by
  rw [toList_bytes, toList_bytes, toList_bytes, ByteArray.toList_data_append]

theorem toList_toUTF8 (text : String) :
    text.toUTF8.toList = text.toList.flatMap String.utf8EncodeChar := by
  rw [toList_bytes, String.toUTF8_eq_toByteArray, ← String.utf8Encode_toList, List.utf8Encode,
    List.toList_data_toByteArray]

theorem toList_toUTF8_append (a b : String) :
    (a ++ b).toUTF8.toList = a.toUTF8.toList ++ b.toUTF8.toList := by
  simp only [toList_toUTF8, String.toList_append, List.flatMap_append]

theorem toList_toUTF8_join (texts : List String) :
    (String.join texts).toUTF8.toList = texts.flatMap fun text => text.toUTF8.toList := by
  simp only [toList_toUTF8, String.toList_join, List.flatMap_assoc]

theorem fromUTF8?_toList (text : String) :
    String.fromUTF8? ⟨text.toUTF8.toList.toArray⟩ = some text := by
  have hbytes : (⟨text.toUTF8.toList.toArray⟩ : ByteArray) = text.toUTF8 := by
    rw [toList_bytes, Array.toArray_toList]
  rw [hbytes]
  unfold String.fromUTF8?
  exact dif_pos text.isValidUTF8

/-- Only a line feed is written with the byte of a line feed. -/
theorem lineFeed_of_mem_toUTF8 {text : String} (h : 10 ∈ text.toUTF8.toList) : '\n' ∈ text.toList := by
  rw [toList_toUTF8, List.mem_flatMap] at h
  obtain ⟨c, hc, hbyte⟩ := h
  have hvalue : c.val.toNat = 10 := by
    -- In the forms of two bytes and more, every byte is 128 or more.
    have hten : (10 : UInt8).toNat = 10 := rfl
    unfold String.utf8EncodeChar at hbyte
    simp only at hbyte
    split_ifs at hbyte <;>
      simp only [List.mem_cons, List.not_mem_nil, or_false, ← UInt8.toNat_inj, UInt8.toNat_ofNat',
        hten] at hbyte <;>
      omega
  have hchar : c = '\n' := Char.ext (UInt32.toNat_inj.mp hvalue)
  exact hchar ▸ hc

theorem lineFeed_not_mem_of_decode? {bytes : List UInt8} {text : String}
    (h : Text.decode? ⟨bytes.toArray⟩ = some text) (hbytes : 10 ∉ bytes) : '\n' ∉ text.toList := by
  intro hfeed
  have htext : text.toUTF8 = ⟨bytes.toArray⟩ := by
    unfold Text.decode? String.fromUTF8? at h
    split at h
    next => cases h; rfl
    next => cases h
  have hbyte : 10 ∈ text.toUTF8.toList := by
    rw [toList_toUTF8, List.mem_flatMap]
    exact ⟨'\n', hfeed, by decide⟩
  rw [htext, toList_bytes] at hbyte
  exact hbytes hbyte

/-! ## Ids in lines -/

/-- A text that spells an id is written in digits. -/
theorem ObjectId.lineFeed_not_mem {id : ObjectId} (h : ofText? id.hex = some id) :
    '\n' ∉ id.hex.toList := fun hfeed =>
  absurd (isHexDigit_of_ofText? h _ hfeed) (by decide)

theorem lineFeed_not_mem_hex {id : ObjectId} (h : ObjectId.ofText? id.hex = some id) :
    10 ∉ id.hex.toUTF8.toList := fun hbyte =>
  ObjectId.lineFeed_not_mem h (lineFeed_of_mem_toUTF8 hbyte)

/-- What follows a word is what was written after it. -/
theorem afterWord_append (word : String) (line : List UInt8) :
    afterWord word ((word ++ " ").toUTF8.toList ++ line) = some line := by
  simp [afterWord]

/-- What follows another word does not follow this one. -/
theorem afterWord_of_other {word other : String} {line : List UInt8}
    (h : (word ++ " ").toUTF8.toList.head? ≠ (other ++ " ").toUTF8.toList.head?) :
    afterWord word ((other ++ " ").toUTF8.toList ++ line) = none := by
  have hnonempty : ∀ text : String, ∃ first rest, (text ++ " ").toUTF8.toList = first :: rest := by
    intro text
    refine List.exists_cons_of_ne_nil ?_
    rw [toList_toUTF8_append]
    refine List.append_ne_nil_of_right_ne_nil _ ?_
    rw [toList_toUTF8]
    decide
  obtain ⟨first, rest, hfirst⟩ := hnonempty word
  obtain ⟨first', rest', hfirst'⟩ := hnonempty other
  have hne : first ≠ first' := by
    intro heq
    rw [hfirst, hfirst'] at h
    exact h (congrArg some heq)
  unfold afterWord
  simp only [hfirst, hfirst', List.cons_append]
  simp [hne]

theorem idAfter_hex (word : String) {id : ObjectId} (h : ObjectId.ofText? id.hex = some id) :
    idAfter word ((word ++ " ").toUTF8.toList ++ id.hex.toUTF8.toList) = some id := by
  unfold idAfter
  rw [afterWord_append]
  simp only [fromUTF8?_toList, Option.bind_eq_bind, Option.bind_some, h]

/-! ## Lines of a text -/

theorem splitLine_append {line : List UInt8} (h : 10 ∉ line) (rest : List UInt8) :
    splitLine (line ++ 10 :: rest) = some (line, rest) := by
  have hline : (line ++ 10 :: rest).takeWhile (· != 10) = line := by
    rw [List.takeWhile_append_of_pos fun b hb => by simpa using fun heq : b = 10 => h (heq ▸ hb)]
    simp
  unfold splitLine
  simp only [hline, List.drop_left]

/-- The line that a word and an id make. -/
def idLine (word : String) (id : ObjectId) : List UInt8 :=
  (word ++ " ").toUTF8.toList ++ id.hex.toUTF8.toList

theorem lineFeed_not_mem_word {word : String} {line : List UInt8} (hword : '\n' ∉ word.toList)
    (hline : 10 ∉ line) : 10 ∉ (word ++ " ").toUTF8.toList ++ line := by
  intro h
  rcases List.mem_append.mp h with h | h
  · have hfeed := lineFeed_of_mem_toUTF8 h
    simp [hword] at hfeed
  · exact hline h

theorem lineFeed_not_mem_idLine {word : String} {id : ObjectId} (hword : '\n' ∉ word.toList)
    (hid : ObjectId.ofText? id.hex = some id) : 10 ∉ idLine word id :=
  lineFeed_not_mem_word hword (lineFeed_not_mem_hex hid)

/-- The parent lines at the front give the parents, if another line follows. -/
theorem readParents_lines {parents : List ObjectId} {rest : List UInt8}
    (hparents : ∀ parent ∈ parents, ObjectId.ofText? parent.hex = some parent)
    (hrest : ∀ line after, splitLine rest = some (line, after) → idAfter "parent" line = none) :
    ∀ fuel, parents.length ≤ fuel →
      readParents fuel (parents.flatMap (fun parent => idLine "parent" parent ++ [10]) ++ rest) =
        (parents, rest) := by
  induction parents with
  | nil =>
    intro fuel _
    rw [List.flatMap_nil, List.nil_append]
    cases fuel with
    | zero => rfl
    | succ fuel =>
      unfold readParents
      cases hsplit : splitLine rest with
      | none => rfl
      | some found => simp only [hrest found.1 found.2 hsplit]
  | cons parent parents ih =>
    intro fuel hfuel
    obtain ⟨hparent, hothers⟩ := List.forall_mem_cons.mp hparents
    obtain ⟨fuel, rfl⟩ : ∃ k, fuel = k + 1 := ⟨fuel - 1, by simp at hfuel; omega⟩
    have hfeed : 10 ∉ idLine "parent" parent := lineFeed_not_mem_idLine (by decide) hparent
    have hread : idAfter "parent" (idLine "parent" parent) = some parent := idAfter_hex _ hparent
    rw [List.flatMap_cons, List.append_assoc, List.append_assoc, List.singleton_append, readParents,
      splitLine_append hfeed]
    simp only [hread, ih hothers fuel (by simpa using hfuel)]

/-- A signature line at the front gives the signature. -/
theorem signatureAfter_line {word : String} {signer rest : List UInt8} {signature : Signature}
    (hword : '\n' ∉ word.toList) (hsigner : 10 ∉ signer) (hne : signer ≠ [])
    (hread : Signature.read signer = .ok signature) :
    signatureAfter word ((word ++ " ").toUTF8.toList ++ signer ++ 10 :: rest) =
      .ok (signature, rest) := by
  unfold signatureAfter
  rw [splitLine_append (lineFeed_not_mem_word hword hsigner)]
  simp only [afterWord_append]
  obtain ⟨first, others, rfl⟩ := List.exists_cons_of_ne_nil hne
  simp only [hread]

/-- What a draft without further headers writes, line by line. -/
theorem toList_text (draft : CommitDraft) (tree : ObjectId) (hheaders : draft.headers = .empty) :
    (draft.text tree).toList = idLine "tree" tree ++ 10 ::
      (draft.parents.flatMap (fun parent => idLine "parent" parent ++ [10]) ++
        (("author" ++ " ").toUTF8.toList ++ draft.author.toList ++ 10 ::
          (("committer" ++ " ").toUTF8.toList ++ draft.committer.toList ++ 10 ::
            10 :: draft.message.toList))) := by
  have hfeed : "\n".toUTF8.toList = [10] := by
    rw [toList_toUTF8]
    decide
  have hline : ∀ (word : String) (id : ObjectId),
      (word ++ " " ++ id.hex ++ "\n").toUTF8.toList = idLine word id ++ [10] := by
    intro word id
    rw [toList_toUTF8_append, toList_toUTF8_append, hfeed]
    rfl
  have hparents :
      (String.join (draft.parents.map fun parent => s!"parent {parent.hex}\n")).toUTF8.toList =
        draft.parents.flatMap fun parent => idLine "parent" parent ++ [10] := by
    rw [toList_toUTF8_join, List.flatMap_map]
    exact congrArg (List.flatMap · draft.parents) (funext (hline "parent"))
  have hcommitter : "\ncommitter ".toUTF8.toList = [10] ++ "committer ".toUTF8.toList := by
    rw [← hfeed, ← toList_toUTF8_append]
    rfl
  have htree : (s!"tree {tree.hex}\n").toUTF8.toList = idLine "tree" tree ++ [10] := hline "tree" tree
  unfold CommitDraft.text
  rw [hheaders, ByteArray.append_empty]
  simp only [toList_append, htree, hparents, hcommitter, hfeed, List.append_assoc,
    List.cons_append, List.nil_append]
  rfl

theorem readTree_line {tree : ObjectId} (htree : ObjectId.ofText? tree.hex = some tree)
    (rest : List UInt8) : readTree (idLine "tree" tree ++ 10 :: rest) = .ok (tree, rest) := by
  have hread : idAfter "tree" (idLine "tree" tree) = some tree := idAfter_hex _ htree
  unfold readTree
  rw [splitLine_append (lineFeed_not_mem_idLine (by decide) htree)]
  simp only [hread]

/-- The text of a draft is long enough for the lines of its parents. -/
theorem CommitDraft.length_parents_lt (draft : CommitDraft) (tree : ObjectId)
    (hheaders : draft.headers = .empty) : draft.parents.length < (draft.text tree).size := by
  have hlines : ∀ parents : List ObjectId,
      parents.length ≤ (parents.flatMap fun parent => idLine "parent" parent ++ [10]).length := by
    intro parents
    induction parents with
    | nil => exact Nat.le_refl _
    | cons parent parents ih =>
      rw [List.flatMap_cons, List.length_append, List.length_append, List.length_cons]
      simp only [List.length_singleton]
      omega
  have hsize : (draft.text tree).size = (draft.text tree).toList.length := by
    rw [toList_bytes]
    rfl
  have hdraft := hlines draft.parents
  rw [hsize, toList_text draft tree hheaders]
  simp only [List.length_append, List.length_cons]
  omega

/-- The line of the author is none of a parent. -/
theorem idAfter_parent_of_author {author rest line after : List UInt8} (hauthor : 10 ∉ author)
    (hsplit : splitLine (("author" ++ " ").toUTF8.toList ++ author ++ 10 :: rest) =
      some (line, after)) : idAfter "parent" line = none := by
  rw [splitLine_append (lineFeed_not_mem_word (by decide) hauthor)] at hsplit
  obtain ⟨rfl, -⟩ := Prod.mk.inj (Option.some.inj hsplit)
  unfold idAfter
  rw [afterWord_of_other (by rw [toList_toUTF8, toList_toUTF8]; decide)]
  rfl

/-- **What a draft says is what is read**, if it has no further headers. -/
theorem CommitInfo.read_text (draft : CommitDraft) (tree : ObjectId) {author committer : Signature}
    (htree : ObjectId.ofText? tree.hex = some tree)
    (hparents : ∀ parent ∈ draft.parents, ObjectId.ofText? parent.hex = some parent)
    (hauthor : 10 ∉ draft.author.toList ∧ draft.author.toList ≠ [] ∧
      Signature.read draft.author.toList = .ok author)
    (hcommitter : 10 ∉ draft.committer.toList ∧ draft.committer.toList ≠ [] ∧
      Signature.read draft.committer.toList = .ok committer)
    (hheaders : draft.headers = .empty) :
    CommitInfo.read (draft.text tree) = .ok
      { tree, parents := draft.parents, author, committer
        message := (draft.message.toList.takeWhile (· != 0)).dropWhile (· == 10) } := by
  have hbound := draft.length_parents_lt tree hheaders
  obtain ⟨fuel, hfuel⟩ := Nat.exists_eq_add_one_of_ne_zero (Nat.ne_of_gt (Nat.zero_lt_of_lt hbound))
  have hnoParent : ∀ rest line after, splitLine (("author" ++ " ").toUTF8.toList ++
      draft.author.toList ++ 10 :: rest) = some (line, after) → idAfter "parent" line = none :=
    fun _ _ _ => idAfter_parent_of_author hauthor.1
  have hskip : ∀ rest, skipAuthors (fuel + 1) (("committer" ++ " ").toUTF8.toList ++ rest) =
      .ok (("committer" ++ " ").toUTF8.toList ++ rest) := by
    intro rest
    rw [skipAuthors, afterWord_of_other (by rw [toList_toUTF8, toList_toUTF8]; decide)]
    rfl
  unfold CommitInfo.read
  rw [toList_text draft tree hheaders, readTree_line htree]
  simp only [bind, Except.bind]
  rw [readParents_lines hparents (hnoParent _) _ (Nat.le_of_lt hbound)]
  simp only
  rw [signatureAfter_line (by decide) hauthor.1 hauthor.2.1 hauthor.2.2, hfuel]
  simp only
  rw [List.append_assoc, hskip]
  simp only
  rw [← List.append_assoc,
    signatureAfter_line (by decide) hcommitter.1 hcommitter.2.1 hcommitter.2.2]
  rfl

/-! ## What is read is of the right form -/

/-- An id that was read is spelled by its own digits. -/
theorem ObjectId.ofText?_hex {text : String} {id : ObjectId} (h : ofText? text = some id) :
    ofText? id.hex = some id := by
  have hdigits := isHexDigit_of_ofText? h
  unfold ofText? at h ⊢
  split at h
  next hspelled =>
    cases h
    have hlower : text.toLower.toLower = text.toLower := by
      refine String.toList_inj.mp ?_
      simp only [String.toLower, String.toList_map, List.map_map]
      exact List.map_congr_left fun c hc => (Text.isHexDigit_toLower (hdigits c hc)).2
    have hall : text.toLower.all Text.isHexDigit = true := by
      rw [String.all_bool_eq, String.toLower, String.toList_map, List.all_map, List.all_eq_true]
      exact fun c hc => (Text.isHexDigit_toLower (hdigits c hc)).1
    have hlength : text.toLower.length = 40 := by simpa [String.toLower] using hspelled.1
    rw [if_pos ⟨hlength, hall⟩, hlower]
  next => cases h

theorem ofText?_of_idAfter {word : String} {line : List UInt8} {id : ObjectId}
    (h : idAfter word line = some id) : ObjectId.ofText? id.hex = some id := by
  unfold idAfter at h
  obtain ⟨digits, -, h⟩ := Option.bind_eq_some_iff.mp h
  obtain ⟨text, -, h⟩ := Option.bind_eq_some_iff.mp h
  exact ObjectId.ofText?_hex h

theorem ofText?_of_mem_readParents {fuel : Nat} {bytes : List UInt8} {id : ObjectId}
    (h : id ∈ (readParents fuel bytes).1) : ObjectId.ofText? id.hex = some id := by
  induction fuel generalizing bytes with
  | zero => cases h
  | succ fuel ih =>
    unfold readParents at h
    split at h
    next line rest _ =>
      split at h
      next parent hparent =>
        rcases List.mem_cons.mp h with rfl | h
        · exact ofText?_of_idAfter hparent
        · exact ih h
      next => cases h
    next => cases h

theorem Signature.mem_of_mem_trim {bytes : List UInt8} {b : UInt8} (h : b ∈ trim bytes) :
    b ∈ bytes := by
  have hend := List.mem_reverse.mp ((List.takeWhile_sublist _).subset h)
  have hstart := List.mem_reverse.mp ((List.dropWhile_sublist _).subset hend)
  exact (List.dropWhile_sublist _).subset hstart

theorem Signature.mem_of_mem_splitLast {b other : UInt8} {bytes front back : List UInt8}
    (h : splitLast b bytes = some (front, back)) (hmem : other ∈ front ∨ other ∈ back) :
    other ∈ bytes := by
  unfold splitLast at h
  dsimp only at h
  split at h
  next =>
    cases h
    rcases hmem with hmem | hmem
    · exact List.mem_of_mem_take hmem
    · exact List.mem_reverse.mp ((List.takeWhile_sublist _).subset (List.mem_reverse.mp hmem))
  next => cases h

/-- What a signature names was in its line. -/
theorem Signature.mem_of_read {line : List UInt8} {signature : Signature} {b : UInt8}
    (h : Signature.read line = .ok signature) (hb : b ∈ signature.name ∨ b ∈ signature.email) :
    b ∈ line := by
  unfold Signature.read at h
  split at h
  next => cases h
  next before after hopening =>
    split at h
    next => cases h
    next email time hclosing =>
      split at h
      next => cases h
      next =>
        cases h
        refine mem_of_mem_splitLast hopening (hb.imp mem_of_mem_trim fun hb => ?_)
        exact mem_of_mem_splitLast hclosing (.inl (mem_of_mem_trim hb))

theorem lineFeed_not_mem_of_splitLine {bytes line rest : List UInt8}
    (h : splitLine bytes = some (line, rest)) : 10 ∉ line := by
  unfold splitLine at h
  dsimp only at h
  split at h
  next =>
    cases h
    intro hmem
    exact absurd (List.mem_takeWhile_imp hmem) (by decide)
  next => cases h

/-- A signature stands on one line. -/
theorem lineFeed_not_mem_of_signatureAfter {word : String} {bytes rest : List UInt8}
    {signature : Signature} (h : signatureAfter word bytes = .ok (signature, rest)) :
    10 ∉ signature.name ∧ 10 ∉ signature.email := by
  unfold signatureAfter at h
  split at h
  next => cases h
  next line after hline =>
    have hfeed := lineFeed_not_mem_of_splitLine hline
    split at h
    next => cases h
    next => cases h
    next text _ htext =>
      split at h
      next => cases h
      next hread =>
        cases h
        have hmem : ∀ b ∈ text, b ∈ line := by
          unfold afterWord at htext
          dsimp only at htext
          split at htext
          next =>
            cases htext
            exact fun b hb => List.mem_of_mem_drop hb
          next => cases htext
        exact ⟨fun hb => hfeed (hmem _ (Signature.mem_of_read hread (.inl hb))),
          fun hb => hfeed (hmem _ (Signature.mem_of_read hread (.inr hb)))⟩

/-- The parents and the author of a commit were read from its lines. -/
theorem CommitInfo.exists_of_read {text : ByteArray} {info : CommitInfo}
    (h : CommitInfo.read text = .ok info) :
    ∃ bytes after, info.parents = (readParents text.size bytes).1 ∧
      signatureAfter "author" (readParents text.size bytes).2 = .ok (info.author, after) := by
  unfold CommitInfo.read at h
  simp only [bind, Except.bind] at h
  split at h
  next => cases h
  next found _ =>
  split at h
  next => cases h
  next author hauthor =>
  split at h
  next => cases h
  next =>
  split at h
  next => cases h
  next =>
    cases h
    exact ⟨found.2, author.2, rfl, hauthor⟩

namespace ObjectStore

variable {store : ObjectStore} {id other : ObjectId} {info : CommitInfo}

/-- What a commit says was read from a text. -/
theorem exists_read_of_commit (h : store.commit id = .ok info) :
    ∃ text, CommitInfo.read text = .ok info := by
  unfold commit at h
  split at h
  next => cases h
  next text _ =>
    split at h
    next hread =>
      cases h
      exact ⟨text, hread⟩
    next => cases h
  next => cases h

/-- The parents that a commit names are spelled by their digits. -/
theorem ofText?_of_mem_parents (h : store.commit id = .ok info) (hother : other ∈ info.parents) :
    ObjectId.ofText? other.hex = some other := by
  obtain ⟨text, hread⟩ := exists_read_of_commit h
  obtain ⟨bytes, after, hparents, -⟩ := CommitInfo.exists_of_read hread
  rw [hparents] at hother
  exact ofText?_of_mem_readParents hother

/-- The author of a commit stands on one line. -/
theorem lineFeed_not_mem_author (h : store.commit id = .ok info) :
    10 ∉ info.author.name ∧ 10 ∉ info.author.email := by
  obtain ⟨text, hread⟩ := exists_read_of_commit h
  obtain ⟨bytes, after, -, hauthor⟩ := CommitInfo.exists_of_read hread
  exact lineFeed_not_mem_of_signatureAfter hauthor

end ObjectStore

/-! ## Plain commits -/

/-- The id whose digits are all the same. -/
def ObjectId.uniform (digit : Char) : ObjectId := ⟨String.ofList (List.replicate 40 digit)⟩

theorem ObjectId.ofText?_uniform {digit : Char} (hdigit : Text.isHexDigit digit = true)
    (hlower : digit.toLower = digit) :
    ObjectId.ofText? (ObjectId.uniform digit).hex = some (.uniform digit) := by
  have hsame : (ObjectId.uniform digit).hex.toLower = (ObjectId.uniform digit).hex := by
    rw [← String.toList_inj]
    simp [ObjectId.uniform, String.toLower, hlower]
  unfold ObjectId.ofText?
  rw [hsame]
  simp [ObjectId.uniform, String.all_bool_eq, hdigit]

theorem ObjectId.ofText?_uniforms {digits : List Char}
    (h : digits.all (fun digit => Text.isHexDigit digit && digit.toLower == digit) = true) :
    ∀ id ∈ digits.map ObjectId.uniform, ObjectId.ofText? id.hex = some id := by
  rw [List.forall_mem_map]
  intro digit hdigit
  obtain ⟨hhex, hlower⟩ := Bool.and_eq_true_iff.mp (List.all_eq_true.mp h digit hdigit)
  exact ObjectId.ofText?_uniform hhex (eq_of_beq hlower)

/-- A commit by `a` with some parents and no message, made at a time. -/
def CommitDraft.plain (parents : List ObjectId) (time : String) : CommitDraft :=
  { parents, author := ("a <a> " ++ time).toUTF8, committer := ("a <a> " ++ time).toUTF8
    message := .empty }

/-- What the text of a plain commit says. -/
def CommitInfo.plain (tree : ObjectId) (parents : List ObjectId) (seconds : Int) : CommitInfo :=
  { tree, parents, message := []
    author := { name := [97], email := [97], seconds, offset := 0 }
    committer := { name := [97], email := [97], seconds, offset := 0 } }

/-- One second after the epoch, as plain commits have it. -/
theorem Signature.read_plain : '\n' ∉ "1 +0000".toList ∧
    Signature.read ("a <a> " ++ "1 +0000").toUTF8.toList =
      .ok { name := [97], email := [97], seconds := 1, offset := 0 } := by
  rw [toList_toUTF8]
  decide

/-- A plain commit that says something can be read, if it is in a store. -/
theorem ObjectStore.commit_saying {store : ObjectStore} {id tree : ObjectId}
    {parents : List ObjectId} {time : String} {seconds : Int} (message : ByteArray)
    (hfind : store.find? id =
      some (.commit ({ CommitDraft.plain parents time with message }.text tree)))
    (hids : ∀ used ∈ tree :: parents, ObjectId.ofText? used.hex = some used)
    (htime : '\n' ∉ time.toList ∧ Signature.read ("a <a> " ++ time).toUTF8.toList =
      .ok { name := [97], email := [97], seconds, offset := 0 }) :
    store.commit id = .ok { CommitInfo.plain tree parents seconds with
      message := (message.toList.takeWhile (· != 0)).dropWhile (· == 10) } := by
  obtain ⟨htree, hparents⟩ := List.forall_mem_cons.mp hids
  have hfeed : 10 ∉ ("a <a> " ++ time).toUTF8.toList := fun h => by
    simpa [htime.1] using lineFeed_of_mem_toUTF8 h
  have hne : ("a <a> " ++ time).toUTF8.toList ≠ [] := by
    intro h
    rw [h] at htime
    cases htime.2
  have hread := CommitInfo.read_text { CommitDraft.plain parents time with message } tree htree
    hparents ⟨hfeed, hne, htime.2⟩ ⟨hfeed, hne, htime.2⟩ rfl
  unfold commit
  rw [hfind]
  simp only [hread]
  rfl

/-- A plain commit that is in a store can be read. -/
theorem ObjectStore.commit_plain {store : ObjectStore} {id tree : ObjectId}
    {parents : List ObjectId} {time : String} {seconds : Int}
    (hfind : store.find? id = some (.commit ((CommitDraft.plain parents time).text tree)))
    (hids : ∀ used ∈ tree :: parents, ObjectId.ofText? used.hex = some used)
    (htime : '\n' ∉ time.toList ∧ Signature.read ("a <a> " ++ time).toUTF8.toList =
      .ok { name := [97], email := [97], seconds, offset := 0 }) :
    store.commit id = .ok (.plain tree parents seconds) := by
  have hcommit := commit_saying .empty hfind hids htime
  rwa [ByteArray.toList_empty] at hcommit

end Git

end CommitReports
