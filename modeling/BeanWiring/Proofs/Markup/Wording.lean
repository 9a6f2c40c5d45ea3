import BeanWiring.Markup.Document
import BeanWiring.Proofs.Text.Numbers

/-!
What a defect is about can be told from its entry: its kind, with its line or the name of the
element.

Entries about whole elements begin with characters of their own. The others have their line in
front, whose digits end at the blank behind them, and what is said there begins with other
characters for each kind.
-/

namespace BeanWiring

/-- What an entry is about. -/
inductive Topic where
  | tagAttribute (line : Nat)
  | attributeValue (line : Nat)
  | characterData (line : Nat)
  | textOutsideRoot (line : Nat)
  | secondRoot (name : String)
  | unreadable (line : Nat)
  | unclosed (name : String)
  | missingRoot
deriving DecidableEq, Repr

namespace Topic

/-- The line that is told of what stands at a place of the text. -/
def line? : Topic → Option Nat
  | .tagAttribute line | .attributeValue line | .characterData line => some line
  | .textOutsideRoot line | .unreadable line => some line
  | .secondRoot _ | .unclosed _ | .missingRoot => none

/-- The two characters with which what is said on the line can begin. -/
def beginnings : Topic → List (List Char)
  | .tagAttribute _ => [['p', 'o']]
  | .attributeValue _ => [['属', '性']]
  | .characterData _ => [['E', 'r'], ['i', 'n'], ['a', 't']]
  | .textOutsideRoot _ => [['根', '元']]
  | .unreadable _ => [['s', 'y'], ['i', 'l']]
  | .secondRoot _ | .unclosed _ | .missingRoot => []

/-- No two kinds of topics have a beginning in common. -/
theorem eq_of_beginning {topic other : Topic} {line : Nat} {beginning : List Char}
    (on : topic.line? = some line) (also : other.line? = some line)
    (first : beginning ∈ topic.beginnings) (second : beginning ∈ other.beginnings) :
    topic = other := by
  -- Topics of one kind differ in their lines, and others in every beginning that they have.
  cases topic <;> cases other <;> simp_all [line?, beginnings] <;> grind

end Topic

namespace Defect

/-- What a defect is about: its kind, with its line or the name of its element. -/
def topic : Defect → Topic
  | .tagAttribute line _ => .tagAttribute line
  | .attributeValue line _ _ => .attributeValue line
  | .characterData line _ => .characterData line
  | .textOutsideRoot line => .textOutsideRoot line
  | .secondRoot name => .secondRoot name
  | .unreadable line _ => .unreadable line
  | .unclosed name => .unclosed name
  | .missingRoot => .missingRoot

variable {defect other : Defect}

/-- What is said of a defect on a line is said on its own. -/
theorem SaidOn.line? {line : Nat} {said : String} (found : defect.SaidOn line said) :
    defect.topic.line? = some line := by
  cases found <;> rfl

/-- What is said of a defect on its line begins in the manner of its kind. -/
theorem SaidOn.beginnings {line : Nat} {said : String} (found : defect.SaidOn line said) :
    said.toList.take 2 ∈ defect.topic.beginnings := by
  -- The first two characters of a wording do not depend on its data.
  cases found with
  | tagAttribute line fault =>
    unfold AttributeFault.message
    cases fault <;> simp [topic, Topic.beginnings, toString]
  | attributeValue line key fault => simp [topic, Topic.beginnings]
  | characterData line fault =>
    unfold ReferenceFault.message
    cases fault <;> simp [topic, Topic.beginnings, toString]
  | textOutsideRoot line => simp [topic, Topic.beginnings]
  | unreadable line fault =>
    unfold SyntaxFault.message
    cases fault <;> simp [topic, Topic.beginnings, toString]

/-- Texts with different first characters are different. -/
theorem ne_of_head {left right : String} (differ : left.toList.head? ≠ right.toList.head?) :
    left ≠ right :=
  fun same => differ (congrArg (fun text : String => text.toList.head?) same)

/-- What a defect is about can be told from its entry. -/
theorem Reads.topic_eq {text : String} (reads : defect.Reads text) (also : other.Reads text) :
    defect.topic = other.topic := by
  -- Entries that begin with different characters are not the same text.
  cases reads with
  | @onLine _ line said found =>
    generalize written : "第 " ++ toString line ++ " 行: " ++ said = text at also
    cases also with
    | @onLine _ there heard met =>
      -- The digits of the line end at the blank, and the rest is what is said.
      have lists := congrArg String.toList written
      simp at lists
      obtain ⟨rfl, rest⟩ := number_append_inj (by decide) (by decide) lists
      obtain rfl : said = heard := by simpa [String.toList_inj] using rest
      exact Topic.eq_of_beginning found.line? met.line? found.beginnings met.beginnings
    | _ => exact absurd written (ne_of_head (by simp))
  | secondRoot name =>
    generalize written : "存在多个根元素: <" ++ name ++ ">" = text at also
    cases also with
    | secondRoot other =>
      obtain rfl : name = other := by simpa using written
      rfl
    | _ => exact absurd written (ne_of_head (by simp))
  | unclosed name =>
    generalize written : "元素 <" ++ name ++ "> 未闭合" = text at also
    cases also with
    | unclosed other =>
      obtain rfl : name = other := by simpa using written
      rfl
    | _ => exact absurd written (ne_of_head (by simp))
  | missingRoot =>
    generalize written : "文档缺少根元素" = text at also
    cases also with
    | missingRoot => rfl
    | _ => exact absurd written (ne_of_head (by simp))

end Defect

end BeanWiring
