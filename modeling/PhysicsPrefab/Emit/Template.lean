import PhysicsPrefab.Model.Reader

/-!
# Templates

Every body that is drawn gets its files from templates: two texts with placeholders, and a model
whose bone `model` receives the cubes.
-/

namespace PhysicsPrefab

namespace Template

/-- Replace a pattern wherever it occurs, from the left and without overlaps; `skip` characters
belong to an occurrence that has been replaced. -/
def replaceFrom (pattern value : List Char) : Nat → List Char → List Char
  | _, [] => []
  | skip + 1, _ :: rest => replaceFrom pattern value skip rest
  | 0, character :: rest =>
    if pattern.isPrefixOf (character :: rest) then
      value ++ replaceFrom pattern value (pattern.length - 1) rest
    else character :: replaceFrom pattern value 0 rest

/-- The characters that stand for a variable. -/
def placeholder (name : String) : List Char := '#' :: '\x7b' :: name.toList ++ ['\x7d']

/-- Replace the placeholders of one variable after the other. -/
def substitute (template : String) (values : List (String × String)) : String :=
  String.ofList (values.foldl
    (fun text (name, value) => replaceFrom (placeholder name) value.toList 0 text)
    template.toList)

/-- The built-in behavior of an entity. -/
def builtinBehavior : String := String.intercalate "\n" [
  "\x7b",
  "  \"format_version\": \"1.20.0\",",
  "  \"minecraft:entity\": \x7b",
  "    \"description\": \x7b",
  "      \"identifier\": \"physics:#\x7bprefab\x7d.#\x7bbody\x7d\",",
  "      \"is_spawnable\": false,",
  "      \"is_summonable\": true,",
  "      \"is_experimental\": false,",
  "      \"properties\": \x7b",
  "        \"physics:pitch\": \x7b \"type\": \"float\", \"range\": [-360, 360], \"default\": 0, \"client_sync\": true \x7d,",
  "        \"physics:yaw\": \x7b \"type\": \"float\", \"range\": [-360, 360], \"default\": 0, \"client_sync\": true \x7d,",
  "        \"physics:roll\": \x7b \"type\": \"float\", \"range\": [-360, 360], \"default\": 0, \"client_sync\": true \x7d",
  "      \x7d",
  "    \x7d,",
  "    \"components\": \x7b",
  "      \"minecraft:type_family\": \x7b \"family\": [\"physics\", \"#\x7bprefab\x7d\"] \x7d,",
  "      \"minecraft:physics\": \x7b \"has_gravity\": false, \"has_collision\": false \x7d,",
  "      \"minecraft:collision_box\": \x7b \"width\": 0.1, \"height\": 0.1 \x7d,",
  "      \"minecraft:damage_sensor\": \x7b \"triggers\": \x7b \"cause\": \"all\", \"deals_damage\": false \x7d \x7d,",
  "      \"minecraft:pushable\": \x7b \"is_pushable\": false, \"is_pushable_by_piston\": false \x7d,",
  "      \"minecraft:persistent\": \x7b\x7d",
  "    \x7d",
  "  \x7d",
  "\x7d",
  ""]

/-- The built-in appearance of an entity. -/
def builtinAppearance : String := String.intercalate "\n" [
  "\x7b",
  "  \"format_version\": \"1.10.0\",",
  "  \"minecraft:client_entity\": \x7b",
  "    \"description\": \x7b",
  "      \"identifier\": \"physics:#\x7bprefab\x7d.#\x7bbody\x7d\",",
  "      \"materials\": \x7b \"default\": \"entity_alphatest\" \x7d,",
  "      \"textures\": \x7b \"default\": \"textures/entity/physics/prefabs/#\x7bprefab\x7d\" \x7d,",
  "      \"geometry\": \x7b \"default\": \"geometry.#\x7bprefab\x7d.#\x7bbody\x7d\" \x7d,",
  "      \"animations\": \x7b \"rotate\": \"animation.physics.rotate\" \x7d,",
  "      \"scripts\": \x7b \"animate\": [\"rotate\"] \x7d,",
  "      \"render_controllers\": [\"controller.render.default\"]",
  "    \x7d",
  "  \x7d",
  "\x7d",
  ""]

/-- The built-in model of an entity. -/
def builtinGeometry : String := String.intercalate "\n" [
  "\x7b",
  "  \"format_version\": \"1.12.0\",",
  "  \"minecraft:geometry\": [",
  "    \x7b",
  "      \"description\": \x7b",
  "        \"identifier\": \"geometry.physics.template\",",
  "        \"texture_width\": 64,",
  "        \"texture_height\": 64,",
  "        \"visible_bounds_width\": 4,",
  "        \"visible_bounds_height\": 4,",
  "        \"visible_bounds_offset\": [0, 0, 0]",
  "      \x7d,",
  "      \"bones\": [",
  "        \x7b \"name\": \"root\", \"pivot\": [0, 0, 0] \x7d,",
  "        \x7b \"name\": \"model\", \"parent\": \"root\", \"pivot\": [0, 0, 0], \"cubes\": [] \x7d",
  "      ]",
  "    \x7d",
  "  ]",
  "\x7d",
  ""]

end Template

end PhysicsPrefab
