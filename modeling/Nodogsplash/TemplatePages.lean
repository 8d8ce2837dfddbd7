import Nodogsplash.Start
import Nodogsplash.Template

/-! # Rendered pages

When the page that `show_templated_page` sends ends inside its buffer, and when the
variables of a template are replaced as they are documented. -/

namespace Nodogsplash

open Buffers Substitution

/-! ## The end of the page -/

/-- `TMPLVAR_SIZE`. -/
def tmplvarSize : Nat := 4096

/-- `page_result` after `replace_variables`. -/
def pageResult (context : PageContext) (config : Config) (client : Client)
    (redirectUrl : Option CString) (template : List Char) : Option (List Char) :=
  tmplParse (pageVariables context config client redirectUrl) (template.length + tmplvarSize)
    template

/-- Everything that is read and written is in bounds, and the page ends in its buffer. -/
def Terminated (page : Option (List Char)) : Prop := ∃ buffer, page = some buffer ∧ '\x00' ∈ buffer

def pieceLength (vars : List Template) : Piece Char → Nat
  | .plain _ => 1
  | .named name =>
      match usedValue vars name with
      | none => name.length
      | some value => value.text.length

/-- The length of a template with its values, up to its first NUL. -/
def expandedLength (vars : List Template) (template : List Char) : Nat :=
  (((pieces '$' isVariableChar template).takeWhile fun piece =>
    decide (piece ≠ .plain '\x00')).map (pieceLength vars)).sum

theorem length_expandPieces_emitted (vars : List Template) (pieces : List (Piece Char)) :
    (expandPieces (emitted vars) pieces).length = (pieces.map (pieceLength vars)).sum := by
  induction pieces with
  | nil => rfl
  | cons piece rest induction =>
      rw [expandPieces_cons, List.length_append, induction, List.map_cons, List.sum_cons]
      cases piece with
      | plain char => rfl
      | named name =>
          simp only [Piece.text, emitted, pieceLength]
          cases usedValue vars name with
          | none => rfl
          | some value => rfl

theorem noNul_emitted {vars : List Template} {src name : List Char}
    (member : .named name ∈ pieces '$' isVariableChar src) : '\x00' ∉ emitted vars name := by
  rw [emitted]
  split
  · intro inName
    exact absurd (isName_of_mem_pieces member _ inName) (by decide)
  · next value _ => exact value.noNul

theorem terminated_iff (vars : List Template) (size : Nat) (template : List Char) :
    Terminated (tmplParse vars size template) ↔ expandedLength vars template < size := by
  have length : ((emittedText vars template).takeWhile fun char =>
      decide (char ≠ '\x00')).length = expandedLength vars template := by
    rw [emittedText, expand, takeWhile_expandPieces fun name member => noNul_emitted member,
      length_expandPieces_emitted, expandedLength]
  rw [Terminated, tmplParse_eq, ← length, ← mem_fill_iff]
  constructor
  · rintro ⟨buffer, rendered, ended⟩
    cases rendered
    exact ended
  · exact fun ended => ⟨_, rfl, ended⟩

/-- A rendered page ends in its buffer exactly if the template with the values of its
variables, up to its first NUL, is shorter than the buffer. -/
theorem page_terminated_iff (context : PageContext) (config : Config) (client : Client)
    (redirectUrl : Option CString) (template : List Char) :
    Terminated (pageResult context config client redirectUrl template) ↔
      expandedLength (pageVariables context config client redirectUrl) template <
        template.length + tmplvarSize :=
  terminated_iff _ _ _

/-- The page of a gateway, for a client that has not been authenticated. -/
def splashContext : PageContext where
  gwMac := "00:16:3e:00:00:02"
  formatTime _ := "Thu Jan 01 00:00:00 1970"
  uptime := "1m 5s"
  clientListLength := 1

def splashClient : Client := defaultClient 1 "00:16:3e:00:00:01" "192.168.42.10"

def longRedir : CString where
  text := List.replicate 5000 'a'
  noNul member := absurd (List.eq_of_mem_replicate member) (by decide)

/-- Its value fills the buffer of a page that has little more than the variable. -/
theorem long_redir_unterminated :
    pageResult splashContext defaultConfig splashClient (some longRedir) "$redir".toList =
        some (List.replicate 4102 'a') ∧
      ¬ Terminated
        (pageResult splashContext defaultConfig splashClient (some longRedir) "$redir".toList) := by
  have value : emitted (pageVariables splashContext defaultConfig splashClient (some longRedir))
      "redir".toList = List.replicate 5000 'a' := rfl
  have page : pageResult splashContext defaultConfig splashClient (some longRedir)
      "$redir".toList = some (List.replicate 4102 'a') := by
    have emits : emittedText
        (pageVariables splashContext defaultConfig splashClient (some longRedir))
        "$redir".toList = List.replicate 5000 'a' := by
      have text : "$redir".toList = '$' :: "redir".toList := rfl
      have name : "redir".toList.takeWhile isVariableChar = "redir".toList := by decide
      have rest : "redir".toList.dropWhile isVariableChar = [] := by decide
      rw [text, emittedText_variable, name, rest, value]
      exact List.append_nil _
    have size : "$redir".toList.length + tmplvarSize = 4102 := by decide
    rw [pageResult, tmplParse_eq, emits, size, fill, List.take_replicate, List.length_replicate,
      Nat.min_eq_left (by decide), Nat.sub_eq_zero_of_le (by decide), List.replicate_zero,
      List.append_nil]
  refine ⟨page, ?_⟩
  rw [page]
  rintro ⟨buffer, same, ended⟩
  cases same
  exact absurd (List.eq_of_mem_replicate ended) (by decide)

/-! ## The replacement of the variables -/

/-- What is documented to stand for a variable: the value that the table gives to its
name, which can be none, else the variable itself. -/
def replacement (vars : List Template) (name : List Char) : List Char :=
  match vars.find? fun entry => decide (entry.name = name) with
  | none => '$' :: name
  | some entry => (entry.value.map CString.text).getD []

def replacedText (vars : List Template) (src : List Char) : List Char :=
  expand '$' isVariableChar (replacement vars) src

/-- `tmpl_parse` leaves as much of the replaced text as there is room for, and zeros. -/
def Substitutes (vars : List Template) (dstLen : Nat) (src : List Char) : Prop :=
  tmplParse vars dstLen src = some (fill '\x00' dstLen (replacedText vars src))

/-- The name is in the table, and it fits `varname` or is its own value; if it has no
value it is empty. -/
def Replaced (vars : List Template) (name : List Char) : Prop :=
  match vars.find? fun entry => decide (entry.name = name) with
  | none => False
  | some entry =>
      match entry.value with
      | none => name = []
      | some value => name.length ≤ 31 ∨ value.text = name

theorem emitted_eq_replacement_iff (vars : List Template) (name : List Char) :
    emitted vars name = replacement vars name ↔ Replaced vars name := by
  simp only [emitted, usedValue, replacement, Replaced, getVariableValue]
  cases vars.find? fun entry => decide (entry.name = name) with
  | none => simp
  | some entry =>
      by_cases long : name.length > 31
      · cases found : entry.value with
        | none => simp [long, found]
        | some value => simp [long, found, Nat.not_le.mpr long, eq_comm]
      · cases found : entry.value with
        | none => simp [long, found]
        | some value => simp [long, found, Nat.le_of_not_lt long]

/-- If every variable that begins before the end of the buffer is replaced, the page is
as documented. -/
theorem substitutes_of_replaced {vars : List Template} {dstLen : Nat} {src : List Char}
    (replaced : ∀ before name after,
      pieces '$' isVariableChar src = before ++ .named name :: after →
      (expandPieces (replacement vars) before).length < dstLen → Replaced vars name) :
    Substitutes vars dstLen src := by
  rw [Substitutes, tmplParse_eq]
  apply congrArg some
  apply fill_congr
  symm
  apply take_expandPieces_congr
  intro before piece after split short
  cases piece with
  | plain char => rfl
  | named name =>
      have here := replaced before name after split short
      exact ((emitted_eq_replacement_iff vars name).mpr here).symm

section

variable {vars : List Template} {src name : List Char}

/-- A variable is not known and loses its `$`, or is known and keeps its name because it
has no value, or is replaced. -/
theorem emitted_cases (short : ∀ entry ∈ vars, entry.name.length ≤ 31) (name : List Char) :
    (emitted vars name = name ∧ replacement vars name = '$' :: name ∧ ¬ Replaced vars name) ∨
      (emitted vars name = name ∧ replacement vars name = [] ∧
        (Replaced vars name ↔ name = [])) ∨
      (emitted vars name = replacement vars name ∧ Replaced vars name) := by
  cases found : vars.find? fun entry => decide (entry.name = name) with
  | none =>
      refine .inl ⟨?_, ?_, ?_⟩
      · simp [emitted, usedValue, getVariableValue, found]
      · simp [replacement, found]
      · simp [Replaced, found]
  | some entry =>
      have own : entry.name = name := by simpa using List.find?_some found
      have fits := short entry (List.mem_of_find?_eq_some found)
      rw [own] at fits
      cases value : entry.value with
      | none =>
          refine .inr (.inl ⟨?_, ?_, ?_⟩)
          · simp [emitted, usedValue, getVariableValue, found, value]
          · simp [replacement, found, value]
          · simp [Replaced, found, value]
      | some text =>
          have replaced : Replaced vars name := by simp [Replaced, found, value, fits]
          exact .inr (.inr ⟨(emitted_eq_replacement_iff vars name).mpr replaced, replaced⟩)

theorem marker_not_mem (member : .named name ∈ pieces '$' isVariableChar src) : '$' ∉ name :=
  fun inName => absurd (isName_of_mem_pieces member _ inName) (by decide)

theorem countP_marker_le (short : ∀ entry ∈ vars, entry.name.length ≤ 31) :
    ∀ piece ∈ pieces '$' isVariableChar src,
      (piece.text (emitted vars)).countP (fun char => decide (char = '$')) ≤
        (piece.text (replacement vars)).countP fun char => decide (char = '$') := by
  intro piece member
  cases piece with
  | plain char => exact Nat.le_refl _
  | named name =>
      have none : name.countP (fun char => decide (char = '$')) = 0 := by
        apply List.countP_eq_zero.mpr
        intro char inName
        rw [decide_eq_true_eq]
        rintro rfl
        exact marker_not_mem member inName
      rw [Piece.text, Piece.text]
      rcases emitted_cases short name with ⟨kept, _⟩ | ⟨kept, _⟩ | ⟨same, _⟩
      · rw [kept, none]
        exact Nat.zero_le _
      · rw [kept, none]
        exact Nat.zero_le _
      · rw [same]

theorem countP_ordinary_le (short : ∀ entry ∈ vars, entry.name.length ≤ 31)
    (markers : ∀ piece ∈ pieces '$' isVariableChar src,
      (piece.text (emitted vars)).countP (fun char => decide (char = '$')) =
        (piece.text (replacement vars)).countP fun char => decide (char = '$')) :
    ∀ piece ∈ pieces '$' isVariableChar src,
      (piece.text (replacement vars)).countP (fun char => decide (char ≠ '\x00')) ≤
        (piece.text (emitted vars)).countP fun char => decide (char ≠ '\x00') := by
  intro piece member
  cases piece with
  | plain char => exact Nat.le_refl _
  | named name =>
      have same := markers _ member
      rw [Piece.text, Piece.text] at same ⊢
      rcases emitted_cases short name with ⟨kept, lost, _⟩ | ⟨kept, gone, _⟩ | ⟨equal, _⟩
      · rw [kept, lost] at same
        simp at same
      · rw [gone]
        exact Nat.zero_le _
      · rw [equal]

/-- If every size of the buffer gives what is documented, every variable is replaced. -/
theorem replaced_of_substitutes (short : ∀ entry ∈ vars, entry.name.length ≤ 31)
    (substitutes : ∀ dstLen, Substitutes vars dstLen src) :
    ∀ name, .named name ∈ pieces '$' isVariableChar src → Replaced vars name := by
  have filled := substitutes (max (emittedText vars src).length (replacedText vars src).length)
  rw [Substitutes, tmplParse_eq] at filled
  have counts (test : Char → Bool) (ordinary : test '\x00' = false) :
      (emittedText vars src).countP test = (replacedText vars src).countP test := by
    have equal := congrArg (List.countP test) (Option.some.inj filled)
    rwa [countP_fill ordinary (Nat.le_max_left _ _),
      countP_fill ordinary (Nat.le_max_right _ _)] at equal
  have markers := countP_piece_eq (countP_marker_le short) (counts _ (by decide))
  have others := countP_piece_eq (countP_ordinary_le short markers) (counts _ (by decide)).symm
  intro name member
  have sameMarkers := markers _ member
  have sameOthers := others _ member
  rw [Piece.text, Piece.text] at sameMarkers sameOthers
  rcases emitted_cases short name with ⟨kept, lost, _⟩ | ⟨kept, gone, iff⟩ | ⟨_, replaced⟩
  · rw [kept, lost] at sameMarkers
    simp at sameMarkers
  · rw [kept, gone, List.countP_nil] at sameOthers
    apply iff.mpr
    apply List.eq_nil_iff_forall_not_mem.mpr
    intro char inName
    have visible := List.countP_eq_zero.mp sameOthers.symm char inName
    have nul : char = '\x00' := by simpa using visible
    exact absurd (isName_of_mem_pieces member char inName) (by rw [nul]; decide)
  · exact replaced

end

/-- A page is as documented if every variable that begins in it is replaced, and for a
table of names that fit `varname` this is the only way that it is for every size. -/
theorem template_substitutes_iff (vars : List Template) (src : List Char) :
    (∀ dstLen, (∀ before name after,
        pieces '$' isVariableChar src = before ++ .named name :: after →
        (expandPieces (replacement vars) before).length < dstLen → Replaced vars name) →
      Substitutes vars dstLen src) ∧
    ((∀ entry ∈ vars, entry.name.length ≤ 31) →
      ((∀ dstLen, Substitutes vars dstLen src) ↔
        ∀ name, .named name ∈ pieces '$' isVariableChar src → Replaced vars name)) := by
  refine ⟨fun dstLen => substitutes_of_replaced, ?_⟩
  intro short
  constructor
  · exact replaced_of_substitutes short
  · intro replaced dstLen
    apply substitutes_of_replaced
    intro before name after split _
    apply replaced
    rw [split]
    exact List.mem_append_right _ List.mem_cons_self

/-- A template whose only variable is known. -/
theorem template_substitutes_iff_token :
    Substitutes [⟨['t', 'o', 'k'], some ⟨['1', '2'], by decide⟩⟩] 3
      ['<', '$', 't', 'o', 'k', '>'] := by
  apply ((template_substitutes_iff _ _).2 ?_).mpr
  · intro name member
    have shape : pieces '$' isVariableChar ['<', '$', 't', 'o', 'k', '>'] =
        [.plain '<', .named ['t', 'o', 'k'], .plain '>'] := by decide
    rw [shape] at member
    have known : name = ['t', 'o', 'k'] := by simpa using member
    rw [known]
    exact .inl (by decide)
  · intro entry member
    rw [List.mem_singleton.mp member]
    decide

/-- A request without `redir` for a page with a script. -/
theorem marker_lost_and_name_shown :
    tmplParse (pageVariables splashContext defaultConfig splashClient none) 16
        "$(a) $redir".toList = some ("(a) redir".toList ++ List.replicate 7 '\x00') ∧
      ¬ Substitutes (pageVariables splashContext defaultConfig splashClient none) 16
        "$(a) $redir".toList := by
  have page : tmplParse (pageVariables splashContext defaultConfig splashClient none) 16
      "$(a) $redir".toList = some ("(a) redir".toList ++ List.replicate 7 '\x00') := by
    decide +kernel
  refine ⟨page, ?_⟩
  rw [Substitutes, page]
  decide +kernel

end Nodogsplash
