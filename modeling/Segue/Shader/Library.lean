import Segue.Shader.Registry

/-!
# Built-in transitions

The fragments of the engines that are always there. They are written in the dialect of fragment
shaders for the web; `Shader.Wrap` adapts them.
-/

namespace Segue.Shader.Library

def lines (ls : List String) : String := ls.foldl (fun text l => text ++ l ++ "\n") ""

/-- What every built-in fragment starts with: the declared inputs, and noise to draw with. -/
def common : String :=
  lines [
    "precision highp float;",
    "",
    "uniform sampler2D uTexA;",
    "uniform sampler2D uTexB;",
    "uniform float uProgress;",
    "uniform float uIntensity;",
    "uniform float uTime;",
    "uniform vec2 uResolution;",
    "",
    "varying vec2 vUv;",
    "",
    "float hash(vec2 p) \x7b",
    "    return fract(sin(dot(p, vec2(127.1, 311.7))) * 43758.5453);",
    "\x7d",
    "",
    "float noise(vec2 p) \x7b",
    "    vec2 i = floor(p);",
    "    vec2 f = fract(p);",
    "    f = f * f * (3.0 - 2.0 * f);",
    "    float a = hash(i);",
    "    float b = hash(i + vec2(1.0, 0.0));",
    "    float c = hash(i + vec2(0.0, 1.0));",
    "    float d = hash(i + vec2(1.0, 1.0));",
    "    return mix(mix(a, b, f.x), mix(c, d, f.x), f.y);",
    "\x7d",
    "",
    "float fbm(vec2 p, int octaves) \x7b",
    "    float value = 0.0;",
    "    float amplitude = 0.5;",
    "    for (int i = 0; i < 8; i++) \x7b",
    "        if (i >= octaves) \x7b",
    "            break;",
    "        \x7d",
    "        value += amplitude * noise(p);",
    "        p *= 2.0;",
    "        amplitude *= 0.5;",
    "    \x7d",
    "    return value;",
    "\x7d",
    "",
    "float voronoi(vec2 p) \x7b",
    "    vec2 cell = floor(p);",
    "    vec2 local = fract(p);",
    "    float nearest = 1.0;",
    "    for (int y = -1; y <= 1; y++) \x7b",
    "        for (int x = -1; x <= 1; x++) \x7b",
    "            vec2 neighbor = vec2(float(x), float(y));",
    "            vec2 point = vec2(hash(cell + neighbor), hash(cell + neighbor + vec2(17.0, 31.0)));",
    "            nearest = min(nearest, length(neighbor + point - local));",
    "        \x7d",
    "    \x7d",
    "    return nearest;",
    "\x7d",
    "",
    "float luminance(vec3 color) \x7b",
    "    return dot(color, vec3(0.299, 0.587, 0.114));",
    "\x7d",
    "",
    "vec2 rotate2d(vec2 p, float angle) \x7b",
    "    float s = sin(angle);",
    "    float c = cos(angle);",
    "    return vec2(c * p.x - s * p.y, s * p.x + c * p.y);",
    "\x7d"]

def crossfadeBody : String :=
  lines [
    "",
    "void main() \x7b",
    "    vec4 colorA = texture2D(uTexA, vUv);",
    "    vec4 colorB = texture2D(uTexB, vUv);",
    "    gl_FragColor = mix(colorA, colorB, uProgress);",
    "\x7d"]

/-- Noise decides when a place changes, and the edge glows. -/
def powderBody : String :=
  lines [
    "",
    "uniform float uNoiseScale;",
    "uniform float uSoftness;",
    "",
    "void main() \x7b",
    "    vec4 colorA = texture2D(uTexA, vUv);",
    "    vec4 colorB = texture2D(uTexB, vUv);",
    "    float n = fbm(vUv * uNoiseScale * 8.0 + uTime * 0.1, 4);",
    "    float soft = uSoftness * uIntensity;",
    "    float threshold = uProgress * (1.0 + soft * 2.0);",
    "    float edge = smoothstep(n - soft, n + soft, threshold);",
    "    float glow = smoothstep(n - soft * 2.0, n, threshold) * (1.0 - smoothstep(n, n + soft * 2.0, threshold));",
    "    vec4 result = mix(colorA, colorB, edge);",
    "    result.rgb += vec3(glow * 0.5 * uIntensity);",
    "    gl_FragColor = result;",
    "\x7d"]

def inkBody : String :=
  lines [
    "",
    "uniform float uNoiseScale;",
    "uniform float uSoftness;",
    "",
    "void main() \x7b",
    "    vec4 colorA = texture2D(uTexA, vUv);",
    "    vec4 colorB = texture2D(uTexB, vUv);",
    "    vec2 drift = vec2(0.0, -0.05) * (1.0 - uProgress);",
    "    float n = pow(fbm((vUv + drift) * uNoiseScale * 6.0, 5), 0.7);",
    "    float soft = uSoftness * uIntensity;",
    "    float threshold = uProgress * 1.3;",
    "    float edge = smoothstep(n - soft * 0.5, n + soft * 0.5, threshold);",
    "    float rim = smoothstep(threshold - soft, threshold, n) * (1.0 - smoothstep(threshold, threshold + soft, n));",
    "    vec4 result = mix(colorA, colorB, edge);",
    "    result.rgb -= vec3(rim * 0.1 * uIntensity);",
    "    gl_FragColor = result;",
    "\x7d"]

/-- Cells change one after the other. -/
def cellularBody : String :=
  lines [
    "",
    "uniform float uNoiseScale;",
    "uniform float uSoftness;",
    "",
    "void main() \x7b",
    "    vec4 colorA = texture2D(uTexA, vUv);",
    "    vec4 colorB = texture2D(uTexB, vUv);",
    "    float n = voronoi(vUv * uNoiseScale * 10.0);",
    "    float soft = uSoftness * (0.5 + uIntensity * 0.5);",
    "    float threshold = uProgress * (1.0 + soft * 2.0);",
    "    float edge = smoothstep(n - soft, n + soft, threshold);",
    "    gl_FragColor = mix(colorA, colorB, edge);",
    "\x7d"]

def linearBody : String :=
  lines [
    "",
    "uniform float uSoftness;",
    "uniform float uAngle;",
    "",
    "void main() \x7b",
    "    vec4 colorA = texture2D(uTexA, vUv);",
    "    vec4 colorB = texture2D(uTexB, vUv);",
    "    vec2 dir = vec2(cos(uAngle), sin(uAngle));",
    "    float extent = max(abs(dir.x) + abs(dir.y), 0.0001);",
    "    float mask = dot(vUv - 0.5, dir) / extent + 0.5;",
    "    float wobble = (fbm(vUv * 10.0 + uTime * 0.5, 2) - 0.5) * 0.1 * uIntensity;",
    "    float soft = uSoftness * (1.0 + uIntensity * 2.0);",
    "    float front = uProgress * (1.0 + soft * 2.0 + 0.1) - soft - 0.05;",
    "    float edge = smoothstep(mask + wobble - soft, mask + wobble + soft, front);",
    "    gl_FragColor = mix(colorA, colorB, edge);",
    "\x7d"]

def radialBody : String :=
  lines [
    "",
    "uniform float uSoftness;",
    "",
    "void main() \x7b",
    "    vec4 colorA = texture2D(uTexA, vUv);",
    "    vec4 colorB = texture2D(uTexB, vUv);",
    "    vec2 aspect = vec2(uResolution.x / max(uResolution.y, 1.0), 1.0);",
    "    float mask = length((vUv - 0.5) * aspect) / length(0.5 * aspect);",
    "    float soft = uSoftness * (1.0 + uIntensity);",
    "    float front = uProgress * (1.0 + soft * 2.0) - soft;",
    "    float edge = smoothstep(mask - soft, mask + soft, front);",
    "    gl_FragColor = mix(colorA, colorB, edge);",
    "\x7d"]

def diagonalBody : String :=
  lines [
    "",
    "uniform float uSoftness;",
    "",
    "void main() \x7b",
    "    vec4 colorA = texture2D(uTexA, vUv);",
    "    vec4 colorB = texture2D(uTexB, vUv);",
    "    float mask = (vUv.x + (1.0 - vUv.y)) * 0.5;",
    "    float soft = uSoftness * (1.0 + uIntensity * 2.0);",
    "    float front = uProgress * (1.0 + soft * 2.0) - soft;",
    "    float edge = smoothstep(mask - soft, mask + soft, front);",
    "    gl_FragColor = mix(colorA, colorB, edge);",
    "\x7d"]

/-- The first clip grows, the second one settles. -/
def punchBody : String :=
  lines [
    "",
    "uniform float uScale;",
    "",
    "void main() \x7b",
    "    vec2 center = vec2(0.5, 0.5);",
    "    float zoomA = mix(1.0, uScale, smoothstep(0.0, 0.6, uProgress) * uIntensity);",
    "    float zoomB = mix(1.0, mix(uScale, 1.0, smoothstep(0.4, 1.0, uProgress)), uIntensity);",
    "    vec2 uvA = (vUv - center) / max(zoomA, 0.001) + center;",
    "    vec2 uvB = (vUv - center) / max(zoomB, 0.001) + center;",
    "    vec4 colorA = texture2D(uTexA, clamp(uvA, 0.0, 1.0));",
    "    vec4 colorB = texture2D(uTexB, clamp(uvB, 0.0, 1.0));",
    "    gl_FragColor = mix(colorA, colorB, smoothstep(0.35, 0.65, uProgress));",
    "\x7d"]

/-- Both clips turn and grow around the center. -/
def swirlBody : String :=
  lines [
    "",
    "uniform float uScale;",
    "uniform float uSwirl;",
    "",
    "void main() \x7b",
    "    vec2 centered = vUv - 0.5;",
    "    float strength = sin(uProgress * 3.14159265) * uIntensity;",
    "    float falloff = 1.0 - smoothstep(0.0, 0.7, length(centered));",
    "    float angle = uSwirl * 6.2831853 * strength * falloff;",
    "    float zoom = max(mix(1.0, uScale, strength), 0.001);",
    "    vec2 uv = clamp(rotate2d(centered / zoom, angle) + 0.5, 0.0, 1.0);",
    "    vec4 colorA = texture2D(uTexA, uv);",
    "    vec4 colorB = texture2D(uTexB, uv);",
    "    gl_FragColor = mix(colorA, colorB, smoothstep(0.3, 0.7, uProgress));",
    "\x7d"]

/-- Both clips are smeared in one direction. -/
def directionalBody : String :=
  lines [
    "",
    "uniform float uRadius;",
    "uniform float uAngle;",
    "",
    "void main() \x7b",
    "    float strength = sin(uProgress * 3.14159265) * uRadius * uIntensity * 0.04;",
    "    vec2 dir = vec2(cos(uAngle), sin(uAngle)) * strength;",
    "    vec4 sumA = vec4(0.0);",
    "    vec4 sumB = vec4(0.0);",
    "    for (int i = 0; i < 9; i++) \x7b",
    "        vec2 uv = clamp(vUv + dir * (float(i) / 8.0 - 0.5), 0.0, 1.0);",
    "        sumA += texture2D(uTexA, uv);",
    "        sumB += texture2D(uTexB, uv);",
    "    \x7d",
    "    gl_FragColor = mix(sumA / 9.0, sumB / 9.0, uProgress);",
    "\x7d"]

variable {α : Type} [Scalar α]

def variant (name body : String) (uniforms : List (String × α)) (description : String) :
    String × VariantDef α :=
  (name,
   { fragment := common ++ body
     uniforms := Keyed.ofList (uniforms.map fun (k, x) => (k, .scalar x))
     description })

def engines : List (String × List (String × VariantDef α)) :=
  [("Dissolve",
     [variant "powder" powderBody [("uNoiseScale", 0.8), ("uSoftness", 0.12)]
        "Soft noise dissolve with a glowing edge",
      variant "ink" inkBody [("uNoiseScale", 1.0), ("uSoftness", 0.06)]
        "Ink bleeding through paper",
      variant "cellular" cellularBody [("uNoiseScale", 1.2), ("uSoftness", 0.08)]
        "Voronoi cells flipping to the next clip"]),
   ("Wipe",
     [variant "linear" linearBody [("uSoftness", 0.02), ("uAngle", 0.0)]
        "Straight wipe along uAngle with a wobbling edge",
      variant "radial" radialBody [("uSoftness", 0.04)] "Iris opening from the center",
      variant "diagonal" diagonalBody [("uSoftness", 0.03)] "Corner-to-corner wipe"]),
   ("Zoom",
     [variant "punch" punchBody [("uScale", 1.3)] "Punch in on A, settle out on B",
      variant "swirl" swirlBody [("uScale", 1.15), ("uSwirl", 0.5)]
        "Twisting zoom through the midpoint"]),
   ("Blur",
     [variant "directional" directionalBody [("uRadius", 1.0), ("uAngle", 0.0)]
        "Motion blur peaking at the midpoint"]),
   ("Crossfade", [variant "standard" crossfadeBody [] "Linear blend between the clips"])]

def fallbackKey : ShaderKey := ⟨"Crossfade", "standard"⟩

def fallbackFragment : String := common ++ crossfadeBody

def registerAll (r : Registry α) : Registry α :=
  engines.foldl (fun r e => r.register e.1 e.2) r

def registry : Registry α := registerAll .empty

end Segue.Shader.Library
