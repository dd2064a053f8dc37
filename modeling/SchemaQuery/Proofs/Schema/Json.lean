import SchemaQuery.Proofs.Json.Decoding
import SchemaQuery.Schema.Graph

/-!
# Schemas are given back by their JSON

The JSON form of a document is exact, and the document is decoded from it. The JSON form of its
graph is exact as well.
-/

set_option autoImplicit false

namespace SchemaQuery

open Json (Gives Takes Listed Shallow gives_record gives_text gives_flag gives_strings gives_list)

namespace Relation

theorem gives_toJson (r : Relation) : Gives decoder r.toJson r := by
  apply gives_record
  · simp only [List.append_assoc, List.cons_append, List.nil_append]
    apply Takes.memberOf (fun a _ => gives_text a) (by simp) rfl
    apply Takes.spare (gives_strings _)
    apply Takes.spare (gives_strings _)
    apply Takes.memberOf (fun a _ => gives_text a) (by simp) rfl
    exact Takes.memberOf_last (fun a _ => gives_text a) (by simp) rfl
  · decide

theorem shallow_toJson (r : Relation) : Shallow 2 r.toJson := by
  rw [toJson]
  simp only [List.append_assoc, List.cons_append, List.nil_append]
  refine Shallow.object ?_
    (by decide : ["name", "fields", "references", "onDelete", "onUpdate"].Nodup)
  apply Listed.memberOf fun a _ => .text a
  apply Listed.cons (.strings _)
  apply Listed.cons (.strings _)
  apply Listed.memberOf fun a _ => .text a
  exact Listed.memberOf_last fun a _ => .text a

end Relation

namespace Field

theorem gives_toJson (f : Field) : Gives decoder f.toJson f := by
  apply gives_record
  · simp only [List.cons_append, List.nil_append]
    apply Takes.needed (gives_text _)
    apply Takes.needed (gives_text _)
    apply Takes.needed (gives_flag _)
    apply Takes.spare (gives_flag _)
    apply Takes.spare (gives_flag _)
    apply Takes.spare (gives_flag _)
    apply Takes.memberOf (fun a _ => gives_text a) (by simp) rfl
    exact Takes.memberOf_last (fun r _ => r.gives_toJson) (by simp [Relation.toJson]) rfl
  · decide

theorem shallow_toJson (f : Field) : Shallow 3 f.toJson := by
  rw [toJson]
  simp only [List.cons_append, List.nil_append]
  refine Shallow.object ?_ (by decide :
    ["name", "type", "isRequired", "isList", "isId", "isUnique", "default", "relation"].Nodup)
  apply Listed.cons (.text _)
  apply Listed.cons (.text _)
  apply Listed.cons (.bool _)
  apply Listed.cons (.bool _)
  apply Listed.cons (.bool _)
  apply Listed.cons (.bool _)
  apply Listed.memberOf fun a _ => .text a
  exact Listed.memberOf_last fun r _ => r.shallow_toJson

end Field

namespace Model

theorem gives_toJson (m : Model) : Gives decoder m.toJson m := by
  apply gives_record
  · simp only [List.cons_append, List.nil_append]
    apply Takes.needed (gives_text _)
    apply Takes.memberOf (fun a _ => gives_text a) (by simp) rfl
    apply Takes.spare (gives_list fun f _ => f.gives_toJson)
    exact Takes.nil m
  · decide

theorem shallow_toJson (m : Model) : Shallow 5 m.toJson := by
  rw [toJson]
  simp only [List.cons_append, List.nil_append]
  refine Shallow.object ?_ (by decide : ["name", "dbName", "fields"].Nodup)
  apply Listed.cons (.text _)
  apply Listed.memberOf fun a _ => .text a
  apply Listed.cons (.array fun f _ => f.shallow_toJson)
  exact Listed.nil

end Model

namespace Enumeration

theorem gives_toJson (e : Enumeration) : Gives decoder e.toJson e := by
  apply gives_record
  · apply Takes.needed (gives_text _)
    apply Takes.needed (gives_strings _)
    exact Takes.nil e
  · decide

theorem shallow_toJson (e : Enumeration) : Shallow 5 e.toJson := by
  refine Shallow.object ?_ (by decide : ["name", "values"].Nodup)
  apply Listed.cons (.text _)
  apply Listed.cons (.strings _)
  exact Listed.nil

end Enumeration

namespace Document

theorem gives_source (provider : String) :
    Gives sourceDecoder (.object [("provider", .text provider)]) provider := by
  apply gives_record
  · apply Takes.needed (gives_text _)
    exact Takes.nil provider
  · decide

/-- A document is decoded from its JSON form. -/
theorem gives_toJson (d : Document) : Gives decoder d.toJson d := by
  apply gives_record
  · apply Takes.needed (gives_list fun m _ => m.gives_toJson)
    apply Takes.needed (gives_list fun e _ => e.gives_toJson)
    apply Takes.needed (gives_source _)
    exact Takes.nil d
  · decide

theorem shallow_toJson (d : Document) : Shallow 7 d.toJson := by
  refine Shallow.object ?_ (by decide : ["models", "enums", "datasource"].Nodup)
  apply Listed.cons (.array fun m _ => m.shallow_toJson)
  apply Listed.cons (.array fun e _ => e.shallow_toJson)
  apply Listed.cons (.object (.cons (.text _) .nil) (by decide : ["provider"].Nodup))
  exact Listed.nil

end Document

theorem Row.shallow_toJson (r : Row) : Shallow 1 r.toJson := by
  refine Shallow.object ?_ (by decide : ["name", "type", "isId", "isUnique", "isRelation"].Nodup)
  apply Listed.cons (.text _)
  apply Listed.cons (.text _)
  apply Listed.cons (.bool _)
  apply Listed.cons (.bool _)
  apply Listed.cons (.bool _)
  exact Listed.nil

theorem Node.shallow_toJson (n : Node) : Shallow 3 n.toJson := by
  rw [toJson]
  simp only [List.cons_append, List.nil_append]
  refine Shallow.object ?_ (by decide : ["id", "dbName", "fields"].Nodup)
  apply Listed.cons (.text _)
  apply Listed.memberOf fun a _ => .text a
  apply Listed.cons (.array fun r _ => r.shallow_toJson)
  exact Listed.nil

theorem Edge.shallow_toJson (e : Edge) : Shallow 3 e.toJson := by
  rw [toJson]
  simp only [List.cons_append, List.nil_append]
  refine Shallow.object ?_ (by decide : ["from", "to", "field", "kind", "label"].Nodup)
  apply Listed.cons (.text _)
  apply Listed.cons (.text _)
  apply Listed.cons (.text _)
  apply Listed.cons (.text _)
  exact Listed.memberOf_last fun a _ => .text a

theorem Graph.shallow_toJson (g : Graph) : Shallow 5 g.toJson := by
  refine Shallow.object ?_ (by decide : ["nodes", "edges"].Nodup)
  apply Listed.cons (.array fun n _ => n.shallow_toJson)
  apply Listed.cons (.array fun e _ => e.shallow_toJson)
  exact Listed.nil

end SchemaQuery
