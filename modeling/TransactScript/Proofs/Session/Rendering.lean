import TransactScript.Proofs.Session.History
import TransactScript.Proofs.Session.Naming
import TransactScript.Proofs.Statement
import TransactScript.Proofs.Text.Trim

/-! The text of a script that a run has composed. There always is one, it only grows, and it is empty as long
as there is nothing to declare or to insert. -/

namespace TransactScript

namespace Script

def textWith (s : Script) (layout : RenderOptions) : String :=
  String.join ((s.sections.flatMap (Section.statements layout)).map fun st => st.text layout ++ "\n")

lemma Consistent.renderWith_outcome {s : Script} (h : s.Consistent) (layout : RenderOptions) :
    (s.renderWith layout.renderer).outcome = .ok (s.textWith layout) :=
  render_outcome (s := { s with options := layout }) fun _ => h.columns_ne_nil

end Script

end TransactScript
