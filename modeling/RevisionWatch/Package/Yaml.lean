import RevisionWatch.Package
import RevisionWatch.Yaml.Printer
/-!
# Packages in YAML

A package is written with the same members as in JSON, its service state as an inner mapping.
-/

namespace RevisionWatch

/-- The members of a service state. -/
def ServiceState.yamlMembers : ServiceState → List (String × Yaml.Entry)
  | .notService => [("kind", .text "not_service")]
  | .service active => [("kind", .text "service"), ("active", .boolean active)]

/-- The text of a package; no version, no member. -/
def Package.toYaml (p : Package) : String :=
  Yaml.writeMapping <|
    [("name", .text p.name), ("revision", .number p.revision.number)] ++
      (match p.version with
        | some v => [("version", .text v)]
        | none => []) ++
      [("service", .inner p.service.yamlMembers)]

end RevisionWatch
