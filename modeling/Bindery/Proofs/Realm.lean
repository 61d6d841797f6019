/-
What realms do to the world.

A realm comes with a registry and a debugger whose sink refers to it.  To open or close
a namespace of a realm is told by an event, but nothing is sent, and the realm keeps
its registry.
-/
import Bindery.Proofs.World
import Bindery.Realm

namespace Bindery.Realm

variable {w : World}

theorem sends_make (h : w.debugging.Linked) (settings : Settings) :
    w.Sends (make settings w).2 [] := by
  have hregistry := Debugging.Receives.newRegistry h
  have hdebugger := hregistry.trans <|
    Debugging.Receives.newDebugger hregistry.linked
      ⟨settings.debug, some (.registry w.debugging.newRegistry.1)⟩ <| by
        intro sink hsink
        cases hsink
        exact Debugging.backs_of_has rfl w.debugging.has_newRegistry
  have hworld : w.Sends { w with debugging := _ } [] := .of_debugging hdebugger rfl
  exact hworld.trans ((World.Unheard.log (by simp [Event.isReport])).sends hworld.debugging.linked)

/-- The registry of a new realm is there. -/
theorem has_registry_make (settings : Settings) :
    (make settings w).2.debugging.Has (make settings w).1.registry := by
  exact w.debugging.has_newRegistry

theorem sends_openSpace (h : w.debugging.Linked) {realm : Realm} {ident : String}
    {space : Namespace} {changed : Realm} {w' : World} (hopen : realm.openSpace ident w = .ok (space, changed, w')) :
    w.Sends w' [] ∧ changed.registry = realm.registry := by
  unfold openSpace at hopen
  split at hopen
  · cases hopen
    exact ⟨.refl h, rfl⟩
  · split at hopen
    · cases hopen
    · cases hopen
      exact ⟨(World.Unheard.log (by simp [Event.isReport])).sends h, rfl⟩

theorem sends_closeSpace (h : w.debugging.Linked) (realm : Realm) (ident : String) :
    w.Sends (realm.closeSpace ident w).2.2 [] ∧
      (realm.closeSpace ident w).2.1.registry = realm.registry := by
  unfold closeSpace
  split
  · exact ⟨.refl h, rfl⟩
  · exact ⟨(World.Unheard.log (by simp [Event.isReport])).sends h, rfl⟩

end Bindery.Realm
