import Nodogsplash.Foundation.Buffers
import Nodogsplash.Foundation.Substitution
import Nodogsplash.Http

/-! # Templates

The variables of `replace_variables`, and `tmpl_parse` with the places it reads and
writes. -/

namespace Nodogsplash

open Buffers Substitution

/-! ## Variables -/

/-- A C string: the characters before its NUL. -/
structure CString where
  text : List Char
  noNul : '\x00' ∉ text

def CString.read (text : List Char) : CString where
  text := text.takeWhile fun char => decide (char ≠ '\x00')
  noNul member := by
    have ordinary := List.mem_takeWhile_imp member
    simp at ordinary

/-- `struct template`. The entry without a name ends a table and is not part of it. -/
structure Template where
  name : List Char
  value : Option CString

/-- `get_variable_value`. -/
def getVariableValue (vars : List Template) (name : List Char) : Option CString :=
  (vars.find? fun entry => decide (entry.name = name)).bind Template.value

/-- What is known about a page apart from the configuration and the client: the address
of the gateway, the texts of `format_time` and `get_uptime_string`, and the length of
the client list. -/
structure PageContext where
  gwMac : String
  formatTime : Int → String
  uptime : String
  clientListLength : Int

/-- The table of `replace_variables`. `redirectUrl` is the argument `redir`. -/
def pageVariables (context : PageContext) (config : Config) (client : Client)
    (redirectUrl : Option CString) : List Template :=
  let entry (name text : String) : Template := ⟨name.toList, some (.read text.toList)⟩
  let redir := (redirectUrl.map fun url => String.ofList url.text).getD "(null)"
  [entry "authaction" s!"http://{config.gwHttpName}/{config.authdir}/",
    entry "denyaction" s!"http://{config.gwHttpName}/{config.denydir}/",
    entry "authtarget"
      s!"http://{config.gwHttpName}/{config.authdir}/?tok={client.token}&amp;redir={redir}",
    entry "clientip" client.ip,
    entry "clientmac" client.mac,
    entry "clientupload" (toString client.counters.outgoing),
    entry "clientdownload" (toString client.counters.incoming),
    entry "clientsessionstart" (context.formatTime client.sessionStart),
    entry "clientsessionend" (context.formatTime client.sessionEnd),
    entry "gatewaymac" context.gwMac,
    entry "gatewayname" config.gwName,
    entry "maxclients" (toString config.maxclients),
    entry "sessionlimitblock" (toString config.sessionLimitBlock),
    entry "sessiontimeoutblock" (toString config.sessionTimeoutBlock),
    entry "nclients" (toString context.clientListLength),
    ⟨"redir".toList, redirectUrl⟩,
    entry "tok" client.token,
    entry "token" client.token,
    entry "uptime" context.uptime,
    entry "version" "5.0.2"]

/-! ## tmpl_parse -/

/-- Letters, digits and the underline. -/
def isVariableChar (char : Char) : Bool := char.isAlphanum || char = '_'

/-- Characters that are read; nothing is returned outside the text. -/
def readSlice (src : List Char) (index count : Nat) : Option (List Char) :=
  if index + count ≤ src.length then some ((src.drop index).take count) else none

/-- Characters that are written; nothing is returned outside the buffer. -/
def writeSlice (dst : List Char) (index : Nat) (piece : List Char) : Option (List Char) :=
  if index + piece.length ≤ dst.length then some (overwrite dst index piece) else none

/-- The loop of `tmpl_parse`, which ends before its fuel does. -/
def tmplLoop (vars : List Template) (src : List Char) :
    Nat → List Char → Nat → Nat → Option (List Char)
  | 0, _, _, _ => none
  | fuel + 1, dst, srcIndex, dstIndex =>
      if srcIndex < src.length ∧ dstIndex < dst.length then do
        let char ← src[srcIndex]?
        if char ≠ '$' then
          let dst ← writeSlice dst dstIndex [char]
          tmplLoop vars src fuel dst (srcIndex + 1) (dstIndex + 1)
        else
          let srcIndex := srcIndex + 1
          let varlen := ((src.drop srcIndex).takeWhile isVariableChar).length
          let clamped ← readSlice src srcIndex (min varlen (dst.length - dstIndex))
          -- the array `varname` has 32 places
          if varlen > 31 then
            let dst ← writeSlice dst dstIndex clamped
            tmplLoop vars src fuel dst (srcIndex + varlen) (dstIndex + varlen)
          else
            let varname ← readSlice src srcIndex varlen
            match getVariableValue vars varname with
            | none =>
                let dst ← writeSlice dst dstIndex clamped
                tmplLoop vars src fuel dst (srcIndex + varlen) (dstIndex + varlen)
            | some value =>
                let valuelen := value.text.length
                let dst ← writeSlice dst dstIndex
                  (value.text.take (min valuelen (dst.length - dstIndex)))
                tmplLoop vars src fuel dst (srcIndex + varlen) (dstIndex + valuelen)
      else some dst

/-- `tmpl_parse`: what it leaves in `dst`, or nothing if it reads outside `src` or
writes outside `dst`. -/
def tmplParse (vars : List Template) (dstLen : Nat) (src : List Char) : Option (List Char) :=
  tmplLoop vars src (src.length + 1) (List.replicate dstLen '\x00') 0 0

/-! ## What it emits -/

/-- The value of a name that is known and fits `varname`. -/
def usedValue (vars : List Template) (name : List Char) : Option CString :=
  if name.length > 31 then none else getVariableValue vars name

/-- What stands for a variable: its value, else the name without the `$`. -/
def emitted (vars : List Template) (name : List Char) : List Char :=
  match usedValue vars name with
  | none => name
  | some value => value.text

/-- What `tmpl_parse` makes of a text. -/
def emittedText (vars : List Template) (src : List Char) : List Char :=
  expand '$' isVariableChar (emitted vars) src

example : emittedText [⟨"tok".toList, some ⟨"1234".toList, by decide⟩⟩] "a$tok$b_.$".toList =
    "a1234b_.".toList := by decide

theorem emittedText_plain (vars : List Template) {char : Char} (ordinary : char ≠ '$')
    (rest : List Char) : emittedText vars (char :: rest) = char :: emittedText vars rest := by
  rw [emittedText, expand, pieces_plain ordinary, expandPieces_cons]
  rfl

theorem emittedText_variable (vars : List Template) (rest : List Char) :
    emittedText vars ('$' :: rest) =
      emitted vars (rest.takeWhile isVariableChar) ++
        emittedText vars (rest.dropWhile isVariableChar) := by
  rw [emittedText, expand, pieces_marker rfl, expandPieces_cons]
  rfl

/-! ## In bounds -/

theorem writeSlice_fill {size : Nat} {stored : List Char} (room : stored.length ≤ size)
    (text : List Char) :
    writeSlice (fill '\x00' size stored) stored.length
        (text.take (min text.length (size - stored.length))) =
      some (fill '\x00' size (stored ++ text)) := by
  have whole : text.take (min text.length (size - stored.length)) =
      text.take (size - stored.length) := by
    rw [List.take_eq_take_iff]
    omega
  have fits : stored.length + (text.take (size - stored.length)).length ≤
      (fill '\x00' size stored).length := by
    rw [length_fill, List.length_take]
    omega
  rw [whole, writeSlice, if_pos fits, overwrite_fill room]

theorem readSlice_of_split {src : List Char} {index count : Nat} {name rest : List Char}
    (inside : index ≤ src.length) (split : src.drop index = name ++ rest)
    (short : count ≤ name.length) : readSlice src index count = some (name.take count) := by
  have length := congrArg List.length split
  rw [List.length_drop, List.length_append] at length
  rw [readSlice, if_pos (by omega), split, List.take_append_of_le_length short]

theorem tmplLoop_eq (vars : List Template) (src : List Char) (size : Nat) {fuel : Nat}
    {stored : List Char} {srcIndex : Nat} (inside : srcIndex ≤ src.length)
    (enough : src.length - srcIndex < fuel) :
    tmplLoop vars src fuel (fill '\x00' size stored) srcIndex stored.length =
      some (fill '\x00' size (stored ++ emittedText vars (src.drop srcIndex))) := by
  induction fuel generalizing stored srcIndex with
  | zero => omega
  | succ fuel induction =>
      rw [tmplLoop, length_fill]
      by_cases running : srcIndex < src.length ∧ stored.length < size
      · rw [if_pos running]
        have room := running.2.le
        have here : src.drop srcIndex = src[srcIndex] :: src.drop (srcIndex + 1) :=
          List.drop_eq_getElem_cons running.1
        rw [List.getElem?_eq_getElem running.1, here]
        generalize src[srcIndex] = char
        simp only [Option.bind_eq_bind, Option.bind_some]
        -- what is copied for a piece, and the iterations behind it
        have copies (text : List Char) {next : Nat} (later : srcIndex < next)
            (inside : next ≤ src.length) :
            ((writeSlice (fill '\x00' size stored) stored.length
                (text.take (min text.length (size - stored.length)))).bind fun dst =>
              tmplLoop vars src fuel dst next (stored.length + text.length)) =
            some (fill '\x00' size (stored ++ (text ++ emittedText vars (src.drop next)))) := by
          have rest : tmplLoop vars src fuel (fill '\x00' size (stored ++ text)) next
              (stored ++ text).length = _ := induction inside (by omega)
          rw [List.length_append] at rest
          rw [writeSlice_fill room, Option.bind_some, rest, List.append_assoc]
        by_cases ordinary : char ≠ '$'
        · rw [if_pos ordinary, emittedText_plain vars ordinary]
          have copy := copies [char] (Nat.lt_succ_self srcIndex) running.1
          rwa [List.take_of_length_le (by simp; omega)] at copy
        · rw [if_neg ordinary, not_not.mp ordinary, emittedText_variable]
          have split : src.drop (srcIndex + 1) =
              (src.drop (srcIndex + 1)).takeWhile isVariableChar ++
                (src.drop (srcIndex + 1)).dropWhile isVariableChar :=
            List.takeWhile_append_dropWhile.symm
          generalize (src.drop (srcIndex + 1)).takeWhile isVariableChar = name at split ⊢
          generalize (src.drop (srcIndex + 1)).dropWhile isVariableChar = after at split ⊢
          have behind : src.drop (srcIndex + 1 + name.length) = after := by
            rw [← List.drop_drop, split, List.drop_left]
          have length := congrArg List.length split
          rw [List.length_drop, List.length_append] at length
          have copy (text : List Char) := copies text
            (show srcIndex < srcIndex + 1 + name.length by omega) (by omega)
          rw [behind] at copy
          rw [readSlice_of_split running.1 split (Nat.min_le_left _ _), emitted, usedValue]
          simp only [Option.bind_some]
          by_cases long : name.length > 31
          · rw [if_pos long, if_pos long]
            exact copy name
          · rw [if_neg long, if_neg long, readSlice_of_split running.1 split (Nat.le_refl _),
              List.take_length]
            simp only [Option.bind_some]
            cases getVariableValue vars name with
            | none => exact copy name
            | some value => exact copy value.text
      · rw [if_neg running]
        rcases not_and_or.mp running with ended | full
        · rw [List.drop_of_length_le (Nat.le_of_not_lt ended)]
          exact congrArg some (congrArg _ (List.append_nil stored).symm)
        · rw [fill_full (Nat.le_of_not_lt full)]

theorem tmplParse_eq (vars : List Template) (dstLen : Nat) (src : List Char) :
    tmplParse vars dstLen src = some (fill '\x00' dstLen (emittedText vars src)) := by
  have empty : fill '\x00' dstLen [] = List.replicate dstLen '\x00' := by
    rw [fill, List.take_nil, List.length_nil, Nat.sub_zero, List.nil_append]
  have whole :
      tmplLoop vars src (src.length + 1) (fill '\x00' dstLen []) 0 ([] : List Char).length =
        _ := tmplLoop_eq vars src dstLen (Nat.zero_le _) (by omega)
  rw [empty] at whole
  exact whole

end Nodogsplash
