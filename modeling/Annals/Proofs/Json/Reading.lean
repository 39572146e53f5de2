import Annals.Proofs.Json.Spelling

/-!
# Reading what was written

The machine reads back every value that is well spelled, wherever the value stands. Behind a value it
waits for what the innermost open container allows next; only a number does not know yet that it has
ended, and learns it from the next octet.
-/

namespace Annals.Json

/-- Whether the strings, keys and numbers in a value are spelled as the format wants. -/
inductive WellSpelled : Json → Prop
  | null : WellSpelled .null
  | bool (value : Bool) : WellSpelled (.bool value)
  | number {spelling : Bytes} (h : IsNumberSpelling spelling) : WellSpelled (.number spelling)
  | string {spelling : Bytes} (h : IsTextSpelling spelling) : WellSpelled (.string spelling)
  | array {items : List Json} (h : ∀ item ∈ items, WellSpelled item) : WellSpelled (.array items)
  | object {members : List (Bytes × Json)} (hkeys : ∀ member ∈ members, IsTextSpelling member.1)
      (hvalues : ∀ member ∈ members, WellSpelled member.2) : WellSpelled (.object members)

/-- A member of an object as it stands in a text: with what comes in front of its key and of the colon,
and with what spells its value. -/
structure MemberText where
  before : Bytes
  key : Bytes
  between : Bytes
  value : Json
  text : Bytes

namespace MemberText

def member (text : MemberText) : Bytes × Json :=
  (text.key, text.value)

def octets (text : MemberText) : Bytes :=
  text.before ++ 0x22 :: (text.key ++ 0x22 :: (text.between ++ 0x3A :: text.text))

/-- A member as it is written, without blanks. -/
def plain (member : Bytes × Json) : MemberText :=
  ⟨[], member.1, [], member.2, write member.2⟩

/-- Whether only blanks stand around the key. -/
structure Spaced (text : MemberText) : Prop where
  before : ∀ b ∈ text.before, isBlankOctet b
  between : ∀ b ∈ text.between, isBlankOctet b

theorem spaced_plain (member : Bytes × Json) : (plain member).Spaced :=
  ⟨List.forall_mem_nil _, List.forall_mem_nil _⟩

end MemberText

namespace ReaderState

/-- The state of the machine behind a value. -/
inductive Behind (value : Json) (stack : List Frame) : ReaderState → Prop
  | delivered : Behind value stack (deliver value stack)
  | number {part : NumberPart} {spelling : Bytes} (hvalue : value = .number spelling.reverse)
      (hcomplete : part.complete) : Behind value stack (.number part spelling stack)

theorem next?_eq_none (part : NumberPart) {b : UInt8} (hb : b = 0x2C ∨ b = 0x5D ∨ b = 0x7D) :
    part.next? b = none := by
  rcases hb with rfl | rfl | rfl <;> cases part <;> rfl

theorem Behind.feed_item {value : Json} {items : List Json} {stack : List Frame}
    {state : ReaderState} {b : UInt8} (h : Behind value (.array items :: stack) state)
    (hb : b = 0x2C ∨ b = 0x5D ∨ b = 0x7D) : state.feed b = endItem (value :: items) stack b := by
  cases h with
  | delivered => rfl
  | number hvalue hcomplete =>
    simp only [feed, next?_eq_none _ hb, if_pos hcomplete, endValue, hvalue]

theorem Behind.feed_member {value : Json} {members : List (Bytes × Json)} {key : Bytes}
    {stack : List Frame} {state : ReaderState} {b : UInt8}
    (h : Behind value (.object members key :: stack) state)
    (hb : b = 0x2C ∨ b = 0x5D ∨ b = 0x7D) :
    state.feed b = endMember ((key, value) :: members) stack b := by
  cases h with
  | delivered => rfl
  | number hvalue hcomplete =>
    simp only [feed, next?_eq_none _ hb, if_pos hcomplete, endValue, hvalue]

theorem Behind.result? {value : Json} {state : ReaderState} (h : Behind value [] state) :
    state.result? = some value := by
  cases h with
  | delivered => rfl
  | number hvalue hcomplete => simp only [ReaderState.result?, if_pos hcomplete, hvalue]

/-! ### Scalars -/

/-- While the machine is inside a spelling it goes through it part by part, and keeps what it has
read. -/
theorem foldlM_feed_spelling {σ : Type} {next? : σ → UInt8 → Option σ}
    (place : σ → Bytes → ReaderState)
    (hfeed : ∀ part read b stop, next? part b = some stop →
      (place part read).feed b = some (place stop (b :: read)))
    {spelling : Bytes} {part stop : σ} (read : Bytes)
    (h : spelling.foldlM next? part = some stop) :
    spelling.foldlM feed (place part read) = some (place stop (spelling.reverse ++ read)) := by
  induction spelling generalizing part read with
  | nil =>
    cases h
    rfl
  | cons b spelling ih =>
    rw [List.foldlM_cons] at h
    cases hnext : next? part b with
    | none =>
      rw [hnext] at h
      cases h
    | some following =>
      rw [hnext] at h
      have hrest := ih (b :: read) h
      rw [List.foldlM_cons, hfeed part read b following hnext, List.reverse_cons, List.append_assoc]
      exact hrest

theorem next?_of_inside? {part stop : StringPart} {b : UInt8} (h : part.inside? b = some stop) :
    ¬(part = .plain ∧ b = 0x22) ∧ part.next? b = some stop := by
  rw [StringPart.inside?] at h
  split at h
  · cases h
  · exact ⟨‹_›, h⟩

theorem feed_text {part stop : StringPart} {b : UInt8} (read : Bytes) (stack : List Frame)
    (h : part.inside? b = some stop) :
    feed (.text part read stack) b = some (.text stop (b :: read) stack) := by
  obtain ⟨hquote, hnext⟩ := next?_of_inside? h
  rw [feed, if_neg hquote, hnext, Option.map_some]

theorem feed_keyText {part stop : StringPart} {b : UInt8} (members : List (Bytes × Json))
    (read : Bytes) (stack : List Frame) (h : part.inside? b = some stop) :
    feed (.keyText members part read stack) b =
      some (.keyText members stop (b :: read) stack) := by
  obtain ⟨hquote, hnext⟩ := next?_of_inside? h
  rw [feed, if_neg hquote, hnext, Option.map_some]

theorem feed_number {part stop : NumberPart} {b : UInt8} (read : Bytes) (stack : List Frame)
    (h : part.next? b = some stop) :
    feed (.number part read stack) b = some (.number stop (b :: read) stack) := by
  simp only [feed, h]

/-- The first octet of a number begins nothing else. -/
theorem feed_value_of_first? {b : UInt8} {part : NumberPart} (stack : List Frame)
    (h : NumberPart.first? b = some part) :
    feed (.value stack) b = some (.number part [b] stack) := by
  have hall : ∀ b : UInt8, (NumberPart.first? b).isSome → isBlankOctet b = false ∧
      b ≠ 0x22 ∧ b ≠ 0x7B ∧ b ≠ 0x5B ∧ b ≠ 0x6E ∧ b ≠ 0x74 ∧ b ≠ 0x66 := by
    apply forall_octet
    decide +kernel
  obtain ⟨hblank, hquote, hbrace, hbracket, hn, ht, hf⟩ := hall b (h ▸ rfl)
  rw [feed, if_neg (by rw [hblank]; decide), beginValue, if_neg hquote, if_neg hbrace,
    if_neg hbracket, if_neg hn, if_neg ht, if_neg hf, h, Option.map_some]

theorem foldlM_feed_string {spelling : Bytes} (stack : List Frame) (h : IsTextSpelling spelling) :
    (write (.string spelling)).foldlM feed (.value stack) =
      some (deliver (.string spelling) stack) := by
  have hinside := foldlM_feed_spelling (fun part read => .text part read stack)
    (fun part read b stop => feed_text read stack) [] h
  rw [List.append_nil] at hinside
  rw [write, List.cons_append, List.foldlM_cons]
  change (spelling ++ [0x22]).foldlM feed (.text .plain [] stack) = _
  rw [List.foldlM_append, hinside]
  change some (deliver (.string spelling.reverse.reverse) stack) = _
  rw [List.reverse_reverse]

theorem foldlM_feed_write_number {spelling : Bytes} (stack : List Frame)
    (h : IsNumberSpelling spelling) : ∃ state,
    (write (.number spelling)).foldlM feed (.value stack) = some state ∧
      Behind (.number spelling) stack state := by
  obtain ⟨part, hpart, hcomplete⟩ := h
  cases spelling with
  | nil => cases hpart
  | cons b rest =>
    rw [numberPart?] at hpart
    obtain ⟨first, hfirst, hrest⟩ := Option.bind_eq_some_iff.1 hpart
    refine ⟨.number part (rest.reverse ++ [b]) stack, ?_, .number ?_ hcomplete⟩
    · rw [write, List.foldlM_cons, feed_value_of_first? stack hfirst]
      exact foldlM_feed_spelling (fun part read => .number part read stack)
        (fun part read b stop => feed_number read stack) [b] hrest
    · rw [List.reverse_append, List.reverse_reverse]
      rfl

/-! ### Blanks -/

theorem foldlM_feed_blanks {start : ReaderState} {blanks : Bytes}
    (hstart : ∀ b, isBlankOctet b → start.feed b = some start)
    (h : ∀ b ∈ blanks, isBlankOctet b) : blanks.foldlM feed start = some start := by
  induction blanks with
  | nil => rfl
  | cons b blanks ih =>
    rw [List.foldlM_cons, hstart b (h b List.mem_cons_self)]
    exact ih fun b hb => h b (List.mem_cons_of_mem _ hb)

/-- A blank is no part of a number, and ends it. -/
theorem next?_blank (part : NumberPart) {b : UInt8} (hb : isBlankOctet b) : part.next? b = none := by
  simp only [isBlankOctet, Bool.or_eq_true, decide_eq_true_eq] at hb
  rcases hb with ((rfl | rfl) | rfl) | rfl <;> cases part <;> rfl

theorem feed_deliver_blank (value : Json) (stack : List Frame) {b : UInt8} (hb : isBlankOctet b) :
    (deliver value stack).feed b = some (deliver value stack) := by
  cases stack with
  | nil => simp only [deliver, feed, hb, if_true]
  | cons frame stack =>
    cases frame <;> simp only [deliver, feed, endItem, endMember, hb, if_true]

theorem Behind.feed_blank {value : Json} {stack : List Frame} {state : ReaderState} {b : UInt8}
    (h : Behind value stack state) (hb : isBlankOctet b) :
    state.feed b = some (deliver value stack) := by
  cases h with
  | delivered => exact feed_deliver_blank value stack hb
  | @number part spelling hvalue hcomplete =>
    have hend : endValue value stack b = some (deliver value stack) := by
      cases stack with
      | nil => simp only [deliver, endValue, hb, if_true]
      | cons frame stack =>
        cases frame <;> simp only [deliver, endValue, endItem, endMember, hb, if_true]
    simp only [feed, next?_blank part hb, if_pos hcomplete, ← hvalue, hend]

theorem Behind.foldlM_blanks {value : Json} {stack : List Frame} {state : ReaderState}
    (h : Behind value stack state) {blanks : Bytes} (hblanks : ∀ b ∈ blanks, isBlankOctet b) :
    ∃ next, blanks.foldlM feed state = some next ∧ Behind value stack next := by
  cases blanks with
  | nil => exact ⟨state, rfl, h⟩
  | cons b blanks =>
    refine ⟨_, ?_, .delivered⟩
    rw [List.foldlM_cons, h.feed_blank (hblanks b List.mem_cons_self)]
    exact foldlM_feed_blanks (fun b hb => feed_deliver_blank value stack hb)
      fun b hb => hblanks b (List.mem_cons_of_mem _ hb)

theorem Behind.ne_value {value : Json} {stack : List Frame} {state : ReaderState}
    (h : Behind value stack state) (other : List Frame) : state ≠ .value other := by
  cases h with
  | delivered =>
    cases stack with
    | nil => exact nofun
    | cons frame stack => cases frame <;> exact nofun
  | number => exact nofun

/-! ### Containers -/

/-- Whether the machine, waiting for a value, reads this one from the text. -/
def Reads (value : Json) (text : Bytes) : Prop :=
  ∀ stack, ∃ state, text.foldlM feed (.value stack) = some state ∧ Behind value stack state

theorem Reads.blank {value : Json} {text before behind : Bytes} (h : Reads value text)
    (hbefore : ∀ b ∈ before, isBlankOctet b) (hbehind : ∀ b ∈ behind, isBlankOctet b) :
    Reads value (before ++ text ++ behind) := by
  intro stack
  have hstart : before.foldlM feed (.value stack) = some (.value stack) :=
    foldlM_feed_blanks (fun b hb => by simp only [feed, hb, if_true]) hbefore
  obtain ⟨state, hstate, hvalue⟩ := h stack
  obtain ⟨next, hnext, hend⟩ := hvalue.foldlM_blanks hbehind
  refine ⟨next, ?_, hend⟩
  rw [List.foldlM_append, List.foldlM_append, hstart]
  change text.foldlM feed (.value stack) >>= _ = _
  rw [hstate]
  exact hnext

/-- In front of its first item an array is read as if an item had to follow. -/
theorem foldlM_feed_firstItem {text : Bytes} {stack : List Frame} {state : ReaderState}
    (h : text.foldlM feed (.value (.array [] :: stack)) = some state)
    (hstate : state ≠ .value (.array [] :: stack)) :
    text.foldlM feed (.firstItem stack) = some state := by
  induction text with
  | nil => exact absurd (Option.some.inj h).symm hstate
  | cons b text ih =>
    rw [List.foldlM_cons] at h ⊢
    by_cases hblank : isBlankOctet b
    · simp only [feed, hblank, if_true] at h ⊢
      exact ih h
    · have hclose : b ≠ 0x5D := by
        rintro rfl
        cases h
      simp only [feed, hblank, if_neg hclose] at h ⊢
      exact h

/-- The items of an array are read one after the other, up to the closing bracket. -/
theorem foldlM_feed_items {items : List (Json × Bytes)} (read : List Json) (stack : List Frame)
    (hne : items ≠ []) (hitems : ∀ item ∈ items, Reads item.1 item.2) :
    (separated (items.map Prod.snd) ++ [0x5D]).foldlM feed (.value (.array read :: stack)) =
      some (deliver (.array (read.reverse ++ items.map Prod.fst)) stack) := by
  induction items generalizing read with
  | nil => exact absurd rfl hne
  | cons item items ih =>
    obtain ⟨state, hstate, hbehind⟩ := hitems item List.mem_cons_self (.array read :: stack)
    cases items with
    | nil =>
      rw [List.map_singleton, separated, List.foldlM_append, hstate]
      change state.feed 0x5D >>= _ = _
      rw [hbehind.feed_item (.inr (.inl rfl))]
      change some (deliver (.array (item.1 :: read).reverse) stack) = _
      rw [List.reverse_cons]
      rfl
    | cons following items =>
      have hrest := ih (item.1 :: read) (List.cons_ne_nil _ _)
        fun item hitem => hitems item (List.mem_cons_of_mem _ hitem)
      rw [List.map_cons, separated, List.append_assoc, List.foldlM_append, hstate]
      · change state.feed 0x2C >>= _ = _
        rw [hbehind.feed_item (.inl rfl)]
        rw [List.reverse_cons, List.append_assoc] at hrest
        exact hrest
      · exact List.cons_ne_nil _ _

theorem reads_array {items : List (Json × Bytes)} (hne : items ≠ [])
    (hitems : ∀ item ∈ items, Reads item.1 item.2) :
    Reads (.array (items.map Prod.fst)) (0x5B :: separated (items.map Prod.snd) ++ [0x5D]) := by
  intro stack
  have hbehind : Behind (.array (items.map Prod.fst)) stack
      (deliver (.array (items.map Prod.fst)) stack) := .delivered
  refine ⟨_, ?_, hbehind⟩
  rw [List.cons_append, List.foldlM_cons]
  exact foldlM_feed_firstItem (foldlM_feed_items [] stack hne hitems) (hbehind.ne_value _)

theorem foldlM_feed_key {text : MemberText} {members : List (Bytes × Json)} {stack : List Frame}
    {start : ReaderState} (hspaced : text.Spaced) (hkey : IsTextSpelling text.key)
    (hblank : ∀ b, isBlankOctet b → start.feed b = some start)
    (hstart : start.feed 0x22 = some (.keyText members .plain [] stack)) (rest : Bytes) :
    (text.octets ++ rest).foldlM feed start =
      (text.text ++ rest).foldlM feed (.value (.object members text.key :: stack)) := by
  have hinside := foldlM_feed_spelling (fun part read => .keyText members part read stack)
    (fun part read b stop => feed_keyText members read stack) [] hkey
  have hbetween : text.between.foldlM feed (.afterKey members text.key stack) =
      some (.afterKey members text.key stack) :=
    foldlM_feed_blanks (fun b hb => by simp only [feed, hb, if_true]) hspaced.between
  rw [List.append_nil] at hinside
  rw [MemberText.octets, List.append_assoc, List.foldlM_append,
    foldlM_feed_blanks hblank hspaced.before]
  change (0x22 :: (_ ++ _) ++ rest).foldlM feed start = _
  rw [List.cons_append, List.foldlM_cons, hstart, List.append_assoc]
  change (text.key ++ _).foldlM feed (.keyText members .plain [] stack) = _
  rw [List.foldlM_append, hinside]
  change (text.between ++ 0x3A :: text.text ++ rest).foldlM feed
    (.afterKey members text.key.reverse.reverse stack) = _
  rw [List.reverse_reverse, List.append_assoc, List.foldlM_append, hbetween]
  rfl

/-- The members of an object are read one after the other, up to the closing brace. -/
theorem foldlM_feed_members {texts : List MemberText} (read : List (Bytes × Json))
    (stack : List Frame) (start : ReaderState)
    (hblank : ∀ b, isBlankOctet b → start.feed b = some start)
    (hstart : start.feed 0x22 = some (.keyText read .plain [] stack)) (hne : texts ≠ [])
    (hspaced : ∀ text ∈ texts, text.Spaced) (hkeys : ∀ text ∈ texts, IsTextSpelling text.key)
    (hvalues : ∀ text ∈ texts, Reads text.value text.text) :
    (separated (texts.map MemberText.octets) ++ [0x7D]).foldlM feed start =
      some (deliver (.object (read.reverse ++ texts.map MemberText.member)) stack) := by
  induction texts generalizing read start with
  | nil => exact absurd rfl hne
  | cons text texts ih =>
    have hfeed := foldlM_feed_key (hspaced text List.mem_cons_self)
      (hkeys text List.mem_cons_self) hblank hstart
    obtain ⟨state, hstate, hbehind⟩ :=
      hvalues text List.mem_cons_self (.object read text.key :: stack)
    cases texts with
    | nil =>
      rw [List.map_singleton, separated, hfeed, List.foldlM_append, hstate]
      change state.feed 0x7D >>= _ = _
      rw [hbehind.feed_member (.inr (.inr rfl))]
      change some (deliver (.object (text.member :: read).reverse) stack) = _
      rw [List.reverse_cons]
      rfl
    | cons following texts =>
      have hnext := ih (text.member :: read) (.nextKey _ stack)
        (fun b hb => by simp only [feed, hb, if_true]) rfl (List.cons_ne_nil _ _)
        (fun text htext => hspaced text (List.mem_cons_of_mem _ htext))
        (fun text htext => hkeys text (List.mem_cons_of_mem _ htext))
        fun text htext => hvalues text (List.mem_cons_of_mem _ htext)
      rw [List.map_cons, separated, List.append_assoc, hfeed, List.foldlM_append, hstate]
      · change state.feed 0x2C >>= _ = _
        rw [hbehind.feed_member (.inl rfl)]
        rw [List.reverse_cons, List.append_assoc] at hnext
        exact hnext
      · exact List.cons_ne_nil _ _

theorem reads_object {texts : List MemberText} (hne : texts ≠ [])
    (hspaced : ∀ text ∈ texts, text.Spaced) (hkeys : ∀ text ∈ texts, IsTextSpelling text.key)
    (hvalues : ∀ text ∈ texts, Reads text.value text.text) :
    Reads (.object (texts.map MemberText.member))
      (0x7B :: separated (texts.map MemberText.octets) ++ [0x7D]) := by
  intro stack
  refine ⟨_, ?_, .delivered⟩
  rw [List.cons_append, List.foldlM_cons]
  exact foldlM_feed_members [] stack (.firstKey stack)
    (fun b hb => by simp only [feed, hb, if_true]) rfl hne hspaced hkeys hvalues

theorem writeItems_eq (items : List Json) :
    writeItems items = (items.map fun item => (item, write item)).map Prod.snd := by
  induction items with
  | nil => rw [writeItems]; rfl
  | cons item items ih => rw [writeItems, ih]; rfl

theorem writeMembers_eq (members : List (Bytes × Json)) :
    writeMembers members = (members.map MemberText.plain).map MemberText.octets := by
  induction members with
  | nil => rw [writeMembers]; rfl
  | cons member members ih => rw [writeMembers, ih]; rfl

theorem reads_write_array {items : List Json} (h : ∀ item ∈ items, Reads item (write item)) :
    Reads (.array items) (write (.array items)) := by
  cases items with
  | nil => exact fun stack => ⟨_, by rw [write, writeItems]; rfl, .delivered⟩
  | cons item items =>
    have hitems : ∀ entry ∈ (item :: items).map fun item => (item, write item),
        Reads entry.1 entry.2 := by
      simpa using h
    have hne : (item :: items).map (fun item => (item, write item)) ≠ [] := List.cons_ne_nil _ _
    have harray := reads_array hne hitems
    rw [← writeItems_eq, List.map_map] at harray
    rw [write]
    simpa [Function.comp_def] using harray

theorem reads_write_object {members : List (Bytes × Json)}
    (hkeys : ∀ member ∈ members, IsTextSpelling member.1)
    (hvalues : ∀ member ∈ members, Reads member.2 (write member.2)) :
    Reads (.object members) (write (.object members)) := by
  cases members with
  | nil => exact fun stack => ⟨_, by rw [write, writeMembers]; rfl, .delivered⟩
  | cons member members =>
    have hspaced : ∀ text ∈ (member :: members).map MemberText.plain, text.Spaced :=
      List.forall_mem_map.2 fun member _ => MemberText.spaced_plain member
    have hkeyed : ∀ text ∈ (member :: members).map MemberText.plain, IsTextSpelling text.key :=
      List.forall_mem_map.2 hkeys
    have hreads : ∀ text ∈ (member :: members).map MemberText.plain,
        Reads text.value text.text :=
      List.forall_mem_map.2 hvalues
    have hne : (member :: members).map MemberText.plain ≠ [] := List.cons_ne_nil _ _
    have hobject := reads_object hne hspaced hkeyed hreads
    rw [← writeMembers_eq, List.map_map] at hobject
    rw [write]
    simpa [Function.comp_def, MemberText.plain, MemberText.member] using hobject

theorem reads_of_wellSpelled {value : Json} (h : WellSpelled value) : Reads value (write value) := by
  induction h with
  | null => exact fun stack => ⟨_, rfl, .delivered⟩
  | bool value => cases value <;> exact fun stack => ⟨_, rfl, .delivered⟩
  | number h => exact fun stack => foldlM_feed_write_number stack h
  | string h => exact fun stack => ⟨_, foldlM_feed_string stack h, .delivered⟩
  | array _ ih => exact reads_write_array ih
  | object hkeys _ ih => exact reads_write_object hkeys ih

end ReaderState

/-- A value that the machine reads is the value of the text. -/
theorem read?_of_reads {value : Json} {text : Bytes} (h : ReaderState.Reads value text) :
    read? text = some value := by
  obtain ⟨state, hstate, hbehind⟩ := h []
  rw [read?, hstate, Option.bind_some, hbehind.result?]

/-- Every value that is well spelled is read back from what is written for it. -/
theorem read?_write {value : Json} (h : WellSpelled value) : read? (write value) = some value :=
  read?_of_reads (ReaderState.reads_of_wellSpelled h)

end Annals.Json
