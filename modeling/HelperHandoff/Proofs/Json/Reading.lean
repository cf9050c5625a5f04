import HelperHandoff.Proofs.Json.Numeral
import HelperHandoff.Proofs.Json.Strings

/-!
The reader and the grammar agree: what is read is what the text spells, and every text is read. So
a text has one value; and the text of anything but a number goes on up to its last character, since
it is read the same whatever follows it.
-/

set_option autoImplicit false

namespace HelperHandoff.Json

open Reader

/-! ### Blanks -/

theorem skipBlank_blanks_append {a : List Char} (ha : Blanks a) (cs : List Char) :
    skipBlank (a ++ cs) = skipBlank cs := List.dropWhile_append_of_pos ha

theorem skipBlank_blanks {a : List Char} (ha : Blanks a) : skipBlank a = [] := by
  simpa [skipBlank] using skipBlank_blanks_append ha []

theorem skipBlank_cons {c : Char} (hc : isBlank c = false) (cs : List Char) :
    skipBlank (c :: cs) = c :: cs := List.dropWhile_cons_of_neg (by simp [hc])

theorem skipBlank_blanks_cons {a : List Char} (ha : Blanks a) {c : Char} (hc : isBlank c = false)
    (cs : List Char) : skipBlank (a ++ c :: cs) = c :: cs := by
  rw [skipBlank_blanks_append ha, skipBlank_cons hc]

theorem exists_blanks (cs : List Char) : ∃ a, Blanks a ∧ cs = a ++ skipBlank cs := by
  refine ⟨cs.takeWhile isBlank, fun c hc => ?_, List.takeWhile_append_dropWhile.symm⟩
  exact List.all_eq_true.mp List.all_takeWhile c hc

theorem Blanks.append {a b : List Char} (ha : Blanks a) (hb : Blanks b) : Blanks (a ++ b) := by
  intro c hc
  exact (List.mem_append.mp hc).elim (ha c) (hb c)

theorem blanks_nil : Blanks [] := fun _ h => absurd h List.not_mem_nil

theorem stops_nil : Stops [] := fun _ _ h => by cases h

theorem stops_cons {c : Char} (hc : c ∈ [',', ']', '}']) (rest : List Char) :
    Stops (c :: rest) := by
  rintro d tail h
  obtain rfl : c = d := (List.cons.inj h).1
  simp only [List.mem_cons, List.not_mem_nil, or_false] at hc
  obtain rfl | rfl | rfl := hc <;> decide

theorem Blanks.stops_append {b rest : List Char} (hb : Blanks b) (hr : Stops rest) :
    Stops (b ++ rest) := by
  cases b with
  | nil => exact hr
  | cons c b =>
    rintro d tail h
    obtain rfl : c = d := (List.cons.inj h).1
    have hc : isBlank c = true := hb c (by simp)
    simp only [isBlank, Bool.or_eq_true, decide_eq_true_eq] at hc
    obtain ((rfl | rfl) | rfl) | rfl := hc <;> decide

/-! ### One step of the reading -/

def readValue (fuel : Nat) : List Char → Option (Json × List Char)
  | 'n' :: 'u' :: 'l' :: 'l' :: rest => some (.null, rest)
  | 't' :: 'r' :: 'u' :: 'e' :: rest => some (.bool true, rest)
  | 'f' :: 'a' :: 'l' :: 's' :: 'e' :: rest => some (.bool false, rest)
  | '"' :: rest => (stringBody fuel [] rest).map fun (s, rest) => (.string s, rest)
  | '[' :: rest =>
    match skipBlank rest with
    | ']' :: rest => some (.array [], rest)
    | rest => readGoal fuel (.items []) rest
  | '{' :: rest =>
    match skipBlank rest with
    | '}' :: rest => some (.object [], rest)
    | rest => readGoal fuel (.members []) rest
  | rest => numeral rest

def afterItem (fuel : Nat) (found : List Json) (v : Json) (rest : List Char) :
    Option (Json × List Char) :=
  match skipBlank rest with
  | ',' :: rest => readGoal fuel (.items (v :: found)) rest
  | ']' :: rest => some (.array (v :: found).reverse, rest)
  | _ => none

def afterMember (fuel : Nat) (found : List (String × Json)) (k : String) (v : Json)
    (rest : List Char) : Option (Json × List Char) :=
  match skipBlank rest with
  | ',' :: rest => readGoal fuel (.members ((k, v) :: found)) rest
  | '}' :: rest => some (.object ((k, v) :: found).reverse, rest)
  | _ => none

theorem readGoal_zero (goal : Goal) (cs : List Char) : readGoal 0 goal cs = none := rfl

theorem readGoal_value (fuel : Nat) (cs : List Char) :
    readGoal (fuel + 1) .value cs = readValue fuel (skipBlank cs) := rfl

theorem readGoal_items (fuel : Nat) (found : List Json) (cs : List Char) :
    readGoal (fuel + 1) (.items found) cs =
      match readGoal fuel .value cs with
      | none => none
      | some (v, rest) => afterItem fuel found v rest := rfl

theorem readGoal_members (fuel : Nat) (found : List (String × Json)) (cs : List Char) :
    readGoal (fuel + 1) (.members found) cs =
      match skipBlank cs with
      | '"' :: rest =>
        match stringBody fuel [] rest with
        | none => none
        | some (k, rest) =>
          match skipBlank rest with
          | ':' :: rest =>
            match readGoal fuel .value rest with
            | none => none
            | some (v, rest) => afterMember fuel found k v rest
          | _ => none
      | _ => none := rfl

theorem readGoal_blanks {a : List Char} (ha : Blanks a) (fuel : Nat) (goal : Goal)
    (cs : List Char) : readGoal fuel goal (a ++ cs) = readGoal fuel goal cs := by
  induction fuel generalizing goal with
  | zero => rw [readGoal_zero, readGoal_zero]
  | succ fuel ih =>
    cases goal with
    | value => rw [readGoal_value, readGoal_value, skipBlank_blanks_append ha]
    | items found => rw [readGoal_items, readGoal_items, ih]
    | members found => rw [readGoal_members, readGoal_members, skipBlank_blanks_append ha]

theorem readGoal_skipBlank (fuel : Nat) (goal : Goal) (cs : List Char) :
    readGoal fuel goal (skipBlank cs) = readGoal fuel goal cs := by
  obtain ⟨a, ha, hc⟩ := exists_blanks cs
  have hr := readGoal_blanks ha fuel goal (skipBlank cs)
  rw [← hc] at hr
  exact hr.symm

/-! ### How a value begins -/

theorem Numeral.begins {d e : Int} {t : List Char} (h : Numeral d e t) :
    ∃ c tail, t = c :: tail ∧ (isDigit c = true ∨ c = '-') := by
  cases h with
  | minus => exact ⟨_, _, rfl, .inr rfl⟩
  | @plain ds _ _ _ _ hw =>
    obtain ⟨c, ds', rfl⟩ := List.exists_cons_of_ne_nil hw.1.1
    exact ⟨c, _, rfl, .inl (hw.1.2 c (by simp))⟩

theorem not_isBlank_of_isDigit {c : Char} (h : isDigit c = true ∨ c = '-') : isBlank c = false := by
  cases hb : isBlank c with
  | false => rfl
  | true =>
    simp only [isBlank, Bool.or_eq_true, decide_eq_true_eq] at hb
    obtain ((rfl | rfl) | rfl) | rfl := hb <;> simp [isDigit] at h

theorem readGoal_numeral {c : Char} (h : isDigit c = true ∨ c = '-') (fuel : Nat)
    (tail : List Char) : readGoal (fuel + 1) .value (c :: tail) = numeral (c :: tail) := by
  rw [readGoal_value, skipBlank_cons (not_isBlank_of_isDigit h)]
  unfold readValue
  split
  case h_7 => rfl
  all_goals
    next hc =>
      obtain rfl := (List.cons.inj hc).1
      simp [isDigit] at h

/-- How the text of each part begins, blanks aside. -/
def Begins : Part → List Char → Prop
  | .value _, t => ∃ c tail, t = c :: tail ∧ isBlank c = false ∧ c ≠ ']'
  | .element _, t | .items _, t =>
    ∃ a c tail, Blanks a ∧ t = a ++ c :: tail ∧ isBlank c = false ∧ c ≠ ']'
  | .members _, t => ∃ a tail, Blanks a ∧ t = a ++ '"' :: tail

theorem Spelling.begins {p : Part} {t : List Char} (h : Spelling p t) : Begins p t := by
  induction h with
  | null | yes | no | string | emptyArray | array | emptyObject | object =>
    exact ⟨_, _, rfl, by decide, by decide⟩
  | number h =>
    obtain ⟨c, tail, rfl, hc⟩ := h.begins
    refine ⟨c, tail, rfl, not_isBlank_of_isDigit hc, ?_⟩
    rintro rfl
    simp [isDigit] at hc
  | element ha _ _ ih =>
    obtain ⟨c, tail, rfl, hc⟩ := ih
    exact ⟨_, c, _, ha, rfl, hc⟩
  | lastItem _ ih => exact ih
  | item _ _ ih _ =>
    obtain ⟨a, c, tail, ha, rfl, hc⟩ := ih
    exact ⟨a, c, _, ha, List.append_assoc _ _ _, hc⟩
  | lastMember hk | member hk =>
    obtain ⟨ha, _, _⟩ := hk
    exact ⟨_, _, ha, List.append_assoc _ _ _⟩

/-! ### What opens a value -/

theorem readGoal_string (fuel : Nat) (rest : List Char) :
    readGoal (fuel + 1) .value ('"' :: rest) =
      (stringBody fuel [] rest).map fun p => (.string p.1, p.2) := rfl

theorem readGoal_bracket (fuel : Nat) (rest : List Char) :
    readGoal (fuel + 1) .value ('[' :: rest) =
      match skipBlank rest with
      | ']' :: after => some (.array [], after)
      | after => readGoal fuel (.items []) after := rfl

theorem readGoal_brace (fuel : Nat) (rest : List Char) :
    readGoal (fuel + 1) .value ('{' :: rest) =
      match skipBlank rest with
      | '}' :: after => some (.object [], after)
      | after => readGoal fuel (.members []) after := rfl

theorem readGoal_emptyArray {a : List Char} (ha : Blanks a) (fuel : Nat) (rest : List Char) :
    readGoal (fuel + 1) .value ('[' :: (a ++ ']' :: rest)) = some (.array [], rest) := by
  have hclose := skipBlank_blanks_cons (c := ']') ha rfl rest
  simp only [readGoal_bracket, hclose]

theorem readGoal_emptyObject {a : List Char} (ha : Blanks a) (fuel : Nat) (rest : List Char) :
    readGoal (fuel + 1) .value ('{' :: (a ++ '}' :: rest)) = some (.object [], rest) := by
  have hclose := skipBlank_blanks_cons (c := '}') ha rfl rest
  simp only [readGoal_brace, hclose]

theorem readGoal_array {rest : List Char} (h : ∀ tail, skipBlank rest ≠ ']' :: tail) (fuel : Nat) :
    readGoal (fuel + 1) .value ('[' :: rest) = readGoal fuel (.items []) rest := by
  rw [readGoal_bracket, ← readGoal_skipBlank fuel _ rest]
  split
  · next tail hr => exact absurd hr (h tail)
  · rfl

theorem readGoal_object {rest : List Char} (h : ∀ tail, skipBlank rest ≠ '}' :: tail) (fuel : Nat) :
    readGoal (fuel + 1) .value ('{' :: rest) = readGoal fuel (.members []) rest := by
  rw [readGoal_brace, ← readGoal_skipBlank fuel _ rest]
  split
  · next tail hr => exact absurd hr (h tail)
  · rfl

section Items

variable {v : Json} {fuel : Nat} {cs after rest : List Char}

theorem readGoal_items_more (h : readGoal fuel .value cs = some (v, after))
    (hs : skipBlank after = ',' :: rest) (found : List Json) :
    readGoal (fuel + 1) (.items found) cs = readGoal fuel (.items (v :: found)) rest := by
  simp only [readGoal_items, h, afterItem, hs]

theorem readGoal_items_last (h : readGoal fuel .value cs = some (v, after))
    (hs : skipBlank after = ']' :: rest) (found : List Json) :
    readGoal (fuel + 1) (.items found) cs = some (.array (v :: found).reverse, rest) := by
  simp only [readGoal_items, h, afterItem, hs]

theorem Name.stringBody {k : String} {key : List Char} (hk : Name k key)
    (hf : key.length < fuel + 2) (cs : List Char) :
    ∃ body after, skipBlank (key ++ cs) = '"' :: body ∧
      Reader.stringBody fuel [] body = some (k, after) ∧ skipBlank after = skipBlank cs := by
  obtain @⟨a, t, b, ha, ht, hb⟩ := hk
  simp only [List.length_append, List.length_cons] at hf
  refine ⟨t ++ '"' :: (b ++ cs), b ++ cs, ?_, ?_, skipBlank_blanks_append hb cs⟩
  · rw [List.append_assoc, skipBlank_blanks_append ha, List.cons_append, skipBlank_cons rfl]
    simp
  · have hlen : t.length < fuel := by omega
    simpa using stringBody_append ht hlen [] (b ++ cs)

variable {k : String} {key : List Char}

theorem readGoal_members_more (hk : Name k key) (hf : key.length < fuel + 2)
    (h : readGoal fuel .value cs = some (v, after)) (hs : skipBlank after = ',' :: rest)
    (found : List (String × Json)) :
    readGoal (fuel + 1) (.members found) (key ++ ':' :: cs) =
      readGoal fuel (.members ((k, v) :: found)) rest := by
  obtain ⟨body, tail, hq, hbody, hcolon⟩ := hk.stringBody hf (':' :: cs)
  rw [skipBlank_cons rfl] at hcolon
  simp only [readGoal_members, hq, hbody, hcolon, h, afterMember, hs]

theorem readGoal_members_last (hk : Name k key) (hf : key.length < fuel + 2)
    (h : readGoal fuel .value cs = some (v, after)) (hs : skipBlank after = '}' :: rest)
    (found : List (String × Json)) :
    readGoal (fuel + 1) (.members found) (key ++ ':' :: cs) =
      some (.object ((k, v) :: found).reverse, rest) := by
  obtain ⟨body, tail, hq, hbody, hcolon⟩ := hk.stringBody hf (':' :: cs)
  rw [skipBlank_cons rfl] at hcolon
  simp only [readGoal_members, hq, hbody, hcolon, h, afterMember, hs]

end Items

/-! ### Every text is read -/

/-- The text of a part is read with as much fuel as it has characters, or one more inside
brackets. Only a number cares what stands behind it. -/
def Reads : Part → List Char → Prop
  | .value v, t => ∀ fuel rest, t.length ≤ fuel → (∀ d e, v = .number d e → Stops rest) →
      readGoal fuel .value (t ++ rest) = some (v, rest)
  | .element v, t => ∀ fuel rest, t.length ≤ fuel → Stops rest →
      ∃ b, Blanks b ∧ readGoal fuel .value (t ++ rest) = some (v, b ++ rest)
  | .items vs, t => ∀ fuel found rest, t.length < fuel →
      readGoal fuel (.items found) (t ++ ']' :: rest) = some (.array (found.reverse ++ vs), rest)
  | .members ms, t => ∀ fuel found rest, t.length < fuel →
      readGoal fuel (.members found) (t ++ '}' :: rest) = some (.object (found.reverse ++ ms), rest)

theorem Spelling.reads {p : Part} {t : List Char} (h : Spelling p t) : Reads p t := by
  induction h with
  | null | yes | no =>
    intro fuel rest hf _
    obtain ⟨fuel, rfl⟩ : ∃ n, fuel = n + 1 := ⟨fuel - 1, by simp at hf; omega⟩
    rfl
  | @number d e t h =>
    intro fuel rest hf hr
    obtain ⟨c, tail, rfl, hc⟩ := h.begins
    obtain ⟨fuel, rfl⟩ : ∃ n, fuel = n + 1 := ⟨fuel - 1, by simp at hf; omega⟩
    rw [List.cons_append, readGoal_numeral hc, ← List.cons_append]
    exact numeral_append h (hr d e rfl)
  | @string s t h =>
    intro fuel rest hf _
    simp only [List.length_cons, List.length_append] at hf
    obtain ⟨fuel, rfl⟩ : ∃ n, fuel = n + 1 := ⟨fuel - 1, by omega⟩
    have hlen : t.length < fuel := by simp at hf; omega
    simp [readGoal_string, stringBody_append h hlen]
  | emptyArray ha =>
    intro fuel rest hf _
    obtain ⟨fuel, rfl⟩ : ∃ n, fuel = n + 1 := ⟨fuel - 1, by simp at hf; omega⟩
    simpa using readGoal_emptyArray ha fuel rest
  | emptyObject ha =>
    intro fuel rest hf _
    obtain ⟨fuel, rfl⟩ : ∃ n, fuel = n + 1 := ⟨fuel - 1, by simp at hf; omega⟩
    simpa using readGoal_emptyObject ha fuel rest
  | @array vs t h ih =>
    intro fuel rest hf _
    simp only [List.length_cons, List.length_append] at hf
    obtain ⟨fuel, rfl⟩ : ∃ n, fuel = n + 1 := ⟨fuel - 1, by omega⟩
    have hopen : ∀ tail, skipBlank (t ++ ']' :: rest) ≠ ']' :: tail := by
      obtain ⟨a, c, t, ha, rfl, hc, hne⟩ := h.begins
      rw [List.append_assoc, skipBlank_blanks_append ha, List.cons_append, skipBlank_cons hc]
      exact fun tail ht => hne (List.cons.inj ht).1
    have hitems := ih fuel [] rest (by simp at hf; omega)
    simp only [List.cons_append, List.append_assoc, List.nil_append]
    rw [readGoal_array hopen, hitems]
    simp
  | @object ms t h ih =>
    intro fuel rest hf _
    simp only [List.length_cons, List.length_append] at hf
    obtain ⟨fuel, rfl⟩ : ∃ n, fuel = n + 1 := ⟨fuel - 1, by omega⟩
    have hopen : ∀ tail, skipBlank (t ++ '}' :: rest) ≠ '}' :: tail := by
      obtain ⟨a, t, ha, rfl⟩ := h.begins
      rw [List.append_assoc, skipBlank_blanks_append ha, List.cons_append, skipBlank_cons rfl]
      exact fun tail ht => absurd (List.cons.inj ht).1 (by decide)
    have hmembers := ih fuel [] rest (by simp at hf; omega)
    simp only [List.cons_append, List.append_assoc, List.nil_append]
    rw [readGoal_object hopen, hmembers]
    simp
  | @element v a t b ha h hb ih =>
    intro fuel rest hf hr
    simp only [List.length_append] at hf
    refine ⟨b, hb, ?_⟩
    rw [List.append_assoc, List.append_assoc, readGoal_blanks ha]
    exact ih fuel (b ++ rest) (by omega) fun _ _ _ => hb.stops_append hr
  | @lastItem v t h ih =>
    intro fuel found rest hf
    obtain ⟨fuel, rfl⟩ : ∃ n, fuel = n + 1 := ⟨fuel - 1, by omega⟩
    obtain ⟨b, hb, hv⟩ := ih fuel (']' :: rest) (by omega) (stops_cons (by simp) rest)
    have hs := skipBlank_blanks_cons (c := ']') hb rfl rest
    rw [readGoal_items_last hv hs, List.reverse_cons]
  | @item v vs t ts h hs ih ihs =>
    intro fuel found rest hf
    simp only [List.length_append, List.length_cons] at hf
    obtain ⟨fuel, rfl⟩ : ∃ n, fuel = n + 1 := ⟨fuel - 1, by omega⟩
    obtain ⟨b, hb, hv⟩ := ih fuel (',' :: (ts ++ ']' :: rest)) (by omega) (stops_cons (by simp) _)
    have hcomma := skipBlank_blanks_cons (c := ',') hb rfl (ts ++ ']' :: rest)
    rw [List.append_assoc, List.cons_append, readGoal_items_more hv hcomma, ihs _ _ _ (by omega)]
    simp
  | @lastMember k v key t hk h ih =>
    intro fuel found rest hf
    simp only [List.length_append, List.length_cons] at hf
    obtain ⟨fuel, rfl⟩ : ∃ n, fuel = n + 1 := ⟨fuel - 1, by omega⟩
    obtain ⟨b, hb, hv⟩ := ih fuel ('}' :: rest) (by omega) (stops_cons (by simp) rest)
    have hs := skipBlank_blanks_cons (c := '}') hb rfl rest
    rw [List.append_assoc, List.cons_append, readGoal_members_last hk (by omega) hv hs,
      List.reverse_cons]
  | @member k v ms key t ts hk h hs ih ihs =>
    intro fuel found rest hf
    simp only [List.length_append, List.length_cons] at hf
    obtain ⟨fuel, rfl⟩ : ∃ n, fuel = n + 1 := ⟨fuel - 1, by omega⟩
    obtain ⟨b, hb, hv⟩ := ih fuel (',' :: (ts ++ '}' :: rest)) (by omega) (stops_cons (by simp) _)
    have hcomma := skipBlank_blanks_cons (c := ',') hb rfl (ts ++ '}' :: rest)
    have hmore := readGoal_members_more hk (by omega) hv hcomma found
    simp only [List.append_assoc, List.cons_append]
    rw [hmore, ihs _ _ _ (by omega)]
    simp

/-! ### What is read is spelled -/

theorem Spelling.blanks_items {vs : List Json} {a t : List Char} (ha : Blanks a)
    (h : Spelling (.items vs) t) : Spelling (.items vs) (a ++ t) := by
  cases h with
  | lastItem h =>
    cases h with
    | element hb h hc =>
      rw [← List.append_assoc]
      exact .lastItem (.element (ha.append hb) h hc)
  | item h hs =>
    cases h with
    | element hb h hc =>
      rw [← List.append_assoc, ← List.append_assoc]
      exact .item (.element (ha.append hb) h hc) hs

/-- What a reading says about the text that it took. -/
def Took : Goal → Json → List Char → List Char → Prop
  | .value, v, cs, rest => ∃ a t, Blanks a ∧ Spelling (.value v) t ∧ cs = a ++ (t ++ rest)
  | .items found, v, cs, rest =>
    ∃ vs t, v = .array (found.reverse ++ vs) ∧ Spelling (.items vs) t ∧ cs = t ++ ']' :: rest
  | .members found, v, cs, rest =>
    ∃ ms t, v = .object (found.reverse ++ ms) ∧ Spelling (.members ms) t ∧ cs = t ++ '}' :: rest

theorem Took.element {v : Json} {cs after rest : List Char} {c : Char}
    (h : Took .value v cs after) (hs : skipBlank after = c :: rest) :
    ∃ t, Spelling (.element v) t ∧ cs = t ++ c :: rest := by
  obtain ⟨a, t, ha, ht, rfl⟩ := h
  obtain ⟨b, hb, hafter⟩ := exists_blanks after
  refine ⟨a ++ (t ++ b), .element ha ht hb, ?_⟩
  rw [hafter, hs]
  simp

theorem Spelling.blanks_members {ms : List (String × Json)} {a t : List Char} (ha : Blanks a)
    (h : Spelling (.members ms) t) : Spelling (.members ms) (a ++ t) := by
  cases h with
  | lastMember hk h =>
    obtain ⟨hb, hg, hc⟩ := hk
    rw [← List.append_assoc, ← List.append_assoc]
    exact .lastMember (.mk (ha.append hb) hg hc) h
  | member hk h hs =>
    obtain ⟨hb, hg, hc⟩ := hk
    rw [← List.append_assoc, ← List.append_assoc]
    exact .member (.mk (ha.append hb) hg hc) h hs

section

variable {fuel : Nat} {cs rest : List Char} {v : Json}

theorem took_value (ih : ∀ {goal cs v rest}, readGoal fuel goal cs = some (v, rest) →
    Took goal v cs rest) (h : readGoal (fuel + 1) .value cs = some (v, rest)) :
    Took .value v cs rest := by
  obtain ⟨a, ha, hcs⟩ := exists_blanks cs
  suffices hv : ∃ t, Spelling (.value v) t ∧ skipBlank cs = t ++ rest by
    obtain ⟨t, ht, hrest⟩ := hv
    exact ⟨a, t, ha, ht, by rw [← hrest, ← hcs]⟩
  rw [readGoal_value] at h
  unfold readValue at h
  split at h
  case h_1 hc | h_2 hc | h_3 hc =>
    obtain ⟨rfl, rfl⟩ := Prod.mk.inj (Option.some.inj h)
    exact ⟨_, by constructor, hc⟩
  case h_4 tail hc =>
    obtain ⟨⟨s, after⟩, hbody, hs⟩ := Option.map_eq_some_iff.mp h
    obtain ⟨rfl, rfl⟩ := Prod.mk.inj hs
    obtain ⟨chars, t, ht, rfl, rfl⟩ := of_stringBody hbody
    exact ⟨_, .string (by simpa using ht), by simp [hc]⟩
  case h_5 tail hc =>
    obtain ⟨b, hb, htail⟩ := exists_blanks tail
    split at h
    · next after hclose =>
      obtain ⟨rfl, rfl⟩ := Prod.mk.inj (Option.some.inj h)
      exact ⟨_, .emptyArray hb, by rw [hc, htail, hclose]; simp⟩
    · obtain ⟨vs, t, rfl, ht, hafter⟩ := ih h
      exact ⟨_, .array (ht.blanks_items hb), by rw [hc, htail, hafter]; simp⟩
  case h_6 tail hc =>
    obtain ⟨b, hb, htail⟩ := exists_blanks tail
    split at h
    · next after hclose =>
      obtain ⟨rfl, rfl⟩ := Prod.mk.inj (Option.some.inj h)
      exact ⟨_, .emptyObject hb, by rw [hc, htail, hclose]; simp⟩
    · obtain ⟨ms, t, rfl, ht, hafter⟩ := ih h
      exact ⟨_, .object (ht.blanks_members hb), by rw [hc, htail, hafter]; simp⟩
  case h_7 =>
    obtain ⟨d, e, t, ht, rfl, hc⟩ := of_numeral h
    exact ⟨t, .number ht, hc⟩

theorem took_items (ih : ∀ {goal cs v rest}, readGoal fuel goal cs = some (v, rest) →
    Took goal v cs rest) {found : List Json}
    (h : readGoal (fuel + 1) (.items found) cs = some (v, rest)) : Took (.items found) v cs rest := by
  rw [readGoal_items] at h
  split at h
  case h_1 => cases h
  next w after hw =>
  unfold afterItem at h
  split at h
  · next tail hc =>
    obtain ⟨t, ht, rfl⟩ := (ih hw).element hc
    obtain ⟨vs, ts, rfl, hts, rfl⟩ := ih h
    exact ⟨w :: vs, _, by simp, .item ht hts, by simp⟩
  · next tail hc =>
    obtain ⟨rfl, rfl⟩ := Prod.mk.inj (Option.some.inj h)
    obtain ⟨t, ht, rfl⟩ := (ih hw).element hc
    exact ⟨[w], t, by simp, .lastItem ht, rfl⟩
  · cases h

theorem took_members (ih : ∀ {goal cs v rest}, readGoal fuel goal cs = some (v, rest) →
    Took goal v cs rest) {found : List (String × Json)}
    (h : readGoal (fuel + 1) (.members found) cs = some (v, rest)) :
    Took (.members found) v cs rest := by
  rw [readGoal_members] at h
  split at h
  case h_2 => cases h
  next body hq =>
  split at h
  · cases h
  next k behind hbody =>
  split at h
  case h_2 => cases h
  next value hcolon =>
  split at h
  · cases h
  next w after hw =>
  obtain ⟨a, ha, hcs⟩ := exists_blanks cs
  obtain ⟨chars, g, hg, rfl, rfl⟩ := of_stringBody hbody
  obtain ⟨b, hb, hbehind⟩ := exists_blanks behind
  have hname : Name (String.ofList chars) (a ++ '"' :: (g ++ '"' :: b)) :=
    .mk ha (by simpa using hg) hb
  unfold afterMember at h
  split at h
  · next tail hc =>
    obtain ⟨t, ht, rfl⟩ := (ih hw).element hc
    obtain ⟨ms, ts, rfl, hts, rfl⟩ := ih h
    refine ⟨(String.ofList chars, w) :: ms, _, by simp, .member hname ht hts, ?_⟩
    rw [hcs, hq, hbehind, hcolon]
    simp
  · next tail hc =>
    obtain ⟨rfl, rfl⟩ := Prod.mk.inj (Option.some.inj h)
    obtain ⟨t, ht, rfl⟩ := (ih hw).element hc
    refine ⟨[(String.ofList chars, w)], _, by simp, .lastMember hname ht, ?_⟩
    rw [hcs, hq, hbehind, hcolon]
    simp
  · cases h

end

theorem took_of_readGoal {fuel : Nat} {goal : Goal} {cs rest : List Char} {v : Json}
    (h : readGoal fuel goal cs = some (v, rest)) : Took goal v cs rest := by
  induction fuel generalizing goal cs v rest with
  | zero => simp [readGoal_zero] at h
  | succ fuel ih =>
    cases goal with
    | value => exact took_value ih h
    | items found => exact took_items ih h
    | members found => exact took_members ih h

/-! ### Whole texts -/

theorem read?_of_isText {cs : List Char} {v : Json} (h : IsText v cs) : read? cs = some v := by
  obtain ⟨b, hb, hr⟩ := h.reads (2 * cs.length + 2) [] (by omega) stops_nil
  rw [List.append_nil, List.append_nil] at hr
  simp [read?, readPrefix?, hr, skipBlank_blanks hb]

theorem isText_of_read? {cs : List Char} {v : Json} (h : read? cs = some v) : IsText v cs := by
  unfold read? at h
  split at h
  · next w rest hr =>
    split at h
    · next hrest =>
      obtain rfl := Option.some.inj h
      obtain ⟨a, t, ha, ht, rfl⟩ := took_of_readGoal hr
      obtain ⟨b, hb, hb'⟩ := exists_blanks rest
      rw [List.isEmpty_iff.mp hrest, List.append_nil] at hb'
      exact .element ha ht (hb' ▸ hb)
    · cases h
  · cases h

theorem read?_eq_some_iff {cs : List Char} {v : Json} : read? cs = some v ↔ IsText v cs :=
  ⟨isText_of_read?, read?_of_isText⟩

theorem IsText.unique {cs : List Char} {v w : Json} (hv : IsText v cs) (hw : IsText w cs) :
    v = w := by
  rw [← read?_eq_some_iff] at hv hw
  rw [hv] at hw
  exact Option.some.inj hw

/-- The text of an array, an object, a string or a word has no other text in front of it. -/
theorem Spelling.eq_of_isPrefix {v w : Json} {pre t : List Char} (ht : Spelling (.value v) t)
    (hv : ∀ d e, v ≠ .number d e) (hpre : IsText w pre) (h : pre <+: t) : pre = t := by
  obtain ⟨suf, rfl⟩ := h
  obtain ⟨fuel, hlen, hfull⟩ : ∃ fuel, (pre ++ suf).length ≤ fuel ∧
      readGoal (fuel + 1) .value (pre ++ suf) = some (v, []) := by
    refine ⟨_, Nat.le_refl _, ?_⟩
    simpa using ht.reads _ [] (Nat.le_succ _) fun d e hde => absurd hde (hv d e)
  cases hpre with
  | @element _ a t b ha hw hb =>
    rw [List.append_assoc, List.append_assoc, readGoal_blanks ha] at hfull
    have hnum : ∀ d e, w ≠ .number d e := by
      rintro d e rfl
      cases hw with
      | number hnum =>
        obtain ⟨c, tail, rfl, hc⟩ := hnum.begins
        rw [List.cons_append, readGoal_numeral hc] at hfull
        obtain ⟨d, e, -, -, rfl, -⟩ := of_numeral hfull
        exact hv d e rfl
    have ht' : t.length ≤ fuel + 1 := by
      simp only [List.length_append] at hlen
      omega
    rw [hw.reads _ (b ++ suf) ht' fun d e hde => absurd hde (hnum d e)] at hfull
    have hsuf := (Prod.mk.inj (Option.some.inj hfull)).2
    obtain rfl : suf = [] := (List.append_eq_nil_iff.mp hsuf).2
    rw [List.append_nil]

end HelperHandoff.Json
