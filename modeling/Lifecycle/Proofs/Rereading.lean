import Lifecycle.Proofs.WrittenSteps

/-! Whether a step is read back from the text that shows it. A written value is shown as it is
inspected and not as it was given, so that a step that writes comes back with another value; every
other step comes back as it is. -/
namespace Lifecycle

namespace Text

private theorem escape_ne_nil (c : Char) : escape c ≠ [] := by
  unfold escape
  split <;> first | exact List.cons_ne_nil _ _ | skip
  split
  · simp [codePointEscape]
  · exact List.cons_ne_nil _ _

private theorem length_lt_quoted (s : String) : s.toList.length < (quoted s).toList.length := by
  have hescaped (cs : List Char) : cs.length ≤ (cs.flatMap escape).length := by
    induction cs with
    | nil => exact Nat.le_refl _
    | cons c rest ih =>
      have hpos := List.length_pos_iff.mpr (escape_ne_nil c)
      rw [List.flatMap_cons, List.length_append, List.length_cons]
      omega
  have hlen := hescaped s.toList
  simp only [quoted, String.toList_ofList, List.length_append, List.length_cons, List.length_nil]
  omega

end Text

private theorem Value.head?_inspect (v : Value) :
    v.inspect.toList.head? ∈ [some 'N', some 'B', some 'I', some 'F', some 'T'] := by
  cases v <;> simp [inspect, Text.Inspect.applied, String.toList_append]

private theorem Value.getLast?_inspect (v : Value) :
    v.inspect.toList.getLast? ∈ [some 'l', some ')'] := by
  cases v <;> simp [inspect, Text.Inspect.applied, String.toList_append, List.getLast?_cons]

namespace Scenario.Step

/-- No value is inspected as a keyword or as an integer. -/
theorem denotes_inspect (v : Value) : Denotes v.inspect (.text v.inspect) := by
  have hhead := v.head?_inspect
  refine .text ?_ ?_ ?_
  · intro h
    rw [h] at hhead
    revert hhead
    decide
  · intro b h
    rw [h] at hhead
    revert hhead
    cases b <;> decide
  · intro k
    simp only [List.mem_cons, List.not_mem_nil, or_false] at hhead
    rcases hhead with hc | hc | hc | hc | hc <;>
      exact not_spells_of_mem (List.mem_of_mem_head? hc) (by decide) _

private theorem text_inspect_ne (v : Value) : Value.text v.inspect ≠ v := by
  cases v with
  | text s =>
    intro h
    have hlen := congrArg (fun v => match v with | .text s => s.toList.length | _ => 0) h
    simp only [Value.inspect, Text.Inspect.applied, String.toList_append,
      List.length_append] at hlen
    have := Text.length_lt_quoted s
    omega
  | null | bool | integer | float | bytes => simp

def reread : Step → Step
  | write field v => write field (.text v.inspect)
  | t => t

private theorem parse_display_read {s : String} {field : List Char}
    (h : Text.trim s.toList = "read:".toList ++ field) :
    parse (read (String.ofList field)).display = .ok (read (String.ofList field)) := by
  have htext : (read (String.ofList field)).display.toList = "read:".toList ++ field := by
    simp [display, String.toList_append]
  have htrim : Text.trim (read (String.ofList field)).display.toList = "read:".toList ++ field := by
    rw [htext, ← h]
    exact (Text.trimmed_trim _).trim
  have hread : "read:".toList.isPrefixOf? ("read:".toList ++ field) = some field := rfl
  simp only [parse, htrim, hread]

private theorem parse_display_write {field : String} (h : '=' ∉ field.toList) (v : Value) :
    parse (write field v).display = .ok (write field (.text v.inspect)) := by
  have hlast : ∀ c ∈ v.inspect.toList.getLast?, Text.isBlank c = false := by
    intro c hc
    have hmem := v.getLast?_inspect
    rw [hc] at hmem
    simp only [List.mem_cons, Option.some.injEq, List.not_mem_nil, or_false] at hmem
    rcases hmem with rfl | rfl <;> decide
  rw [← denotes_iff.mp (denotes_inspect v)]
  exact parse_writing h hlast

private theorem parse_display_word {w : String} {t : Step} (h : parseWord w = .ok t) :
    parse t.display = .ok t.reread := by
  unfold parseWord at h
  split at h
  · cases h; rfl
  split at h
  · cases h; rfl
  split at h
  · cases h; rfl
  cases ho : Operation.parse w with
  | error e => rw [ho] at h; cases h
  | ok o =>
    rw [ho] at h
    cases o <;> cases h <;> rfl

private theorem parseWrite_ok {whole : String} {rest : List Char} {t : Step}
    (h : parseWrite whole rest = .ok t) : ∃ field v, '=' ∉ field.toList ∧ t = write field v := by
  unfold parseWrite at h
  split at h
  next field _ raw hspan =>
    cases h
    refine ⟨_, _, fun heq => ?_, rfl⟩
    rw [List.span_eq_takeWhile_dropWhile] at hspan
    obtain ⟨rfl, _⟩ := Prod.mk.inj hspan
    rw [String.toList_ofList] at heq
    simpa using List.mem_takeWhile_imp heq
  next => cases h

/-- Every step that was read is read again from the text that shows it, and comes back as it is if
and only if it does not write. -/
theorem display_read_back {s : String} {t : Step} (h : parse s = .ok t) :
    parse t.display = .ok t.reread ∧
      (parse t.display = .ok t ↔ ∀ field v, t ≠ write field v) := by
  have hback : parse t.display = .ok t.reread := by
    unfold parse at h
    simp only at h
    split at h
    next field _ hread =>
      cases h
      exact parse_display_read (List.isPrefixOf?_eq_some_iff_append_eq.mp hread).symm
    next rest _ _ =>
      obtain ⟨field, v, hfield, rfl⟩ := parseWrite_ok h
      exact parse_display_write hfield v
    next => exact parse_display_word h
  refine ⟨hback, ?_⟩
  rw [hback]
  cases t with
  | write field v => simp [reread, text_inspect_ne]
  | _ => simp [reread]

/-- A name in capitals with an underscore, and a step that writes after blanks. -/
theorem display_read_back_folded :
    parse "\tMake_Transient " = .ok (apply .makeTransient) ∧
      parse (apply .makeTransient).display = .ok (apply .makeTransient) ∧
      parse " write:bio=true" = .ok (write "bio" (.bool true)) ∧
      parse (write "bio" (.bool true)).display = .ok (write "bio" (.text "Bool(true)")) := by
  have hname : parse "\tMake_Transient " = .ok (apply .makeTransient) := rfl
  have hwrite : parse " write:bio=true" = .ok (write "bio" (.bool true)) := rfl
  exact ⟨hname, (display_read_back hname).2.mpr (by simp), hwrite, (display_read_back hwrite).1⟩

/-- A text that was written is shown with the name of its kind and in quotation marks, and these are
taken for a part of it. -/
theorem written_text_not_read_back :
    ¬ ∀ (s : String) (t : Step), parse s = .ok t → parse t.display = .ok t := by
  intro h
  have hname := h "write:name=Ada" (write "name" (.text "Ada")) rfl
  have hback : parse (write "name" (.text "Ada")).display =
      .ok (write "name" (.text "Text(\"Ada\")")) := rfl
  rw [hback] at hname
  revert hname
  decide

end Scenario.Step

end Lifecycle
