import NodeShader.Registry

/-!
# Helper functions of the catalog

Noise and color-space functions in shader text. Each stands after the functions it calls,
because that is the order in which they are written.
-/

namespace NodeShader.Catalog.Functions

/-- Lines of text. -/
def lines (ls : List String) : String := "\n".intercalate ls

def hash12 : HelperFunction where
  name := "hash12"
  source := lines [
    "float hash12(vec2 p) \x7b",
    "    return fract(sin(dot(p, vec2(12.9898, 78.233))) * 43758.5453);",
    "\x7d"]

def hash22 : HelperFunction where
  name := "hash22"
  source := lines [
    "vec2 hash22(vec2 p) \x7b",
    "    p = vec2(dot(p, vec2(127.1, 311.7)), dot(p, vec2(269.5, 183.3)));",
    "    return fract(sin(p) * 43758.5453);",
    "\x7d"]

def perlin : HelperFunction where
  name := "perlin"
  source := lines [
    "float perlin(vec2 p) \x7b",
    "    vec2 i = floor(p);",
    "    vec2 f = fract(p);",
    "    f = f * f * (3.0 - 2.0 * f);",
    "    float a = hash12(i);",
    "    float b = hash12(i + vec2(1.0, 0.0));",
    "    float c = hash12(i + vec2(0.0, 1.0));",
    "    float d = hash12(i + vec2(1.0, 1.0));",
    "    return mix(mix(a, b, f.x), mix(c, d, f.x), f.y);",
    "\x7d"]
  requires := ["hash12"]

def simplex : HelperFunction where
  name := "simplex"
  source := lines [
    "float simplex(vec2 p) \x7b",
    "    const float K1 = 0.366025404;",
    "    const float K2 = 0.211324865;",
    "    vec2 i = floor(p + (p.x + p.y) * K1);",
    "    vec2 a = p - i + (i.x + i.y) * K2;",
    "    float m = step(a.y, a.x);",
    "    vec2 o = vec2(m, 1.0 - m);",
    "    vec2 b = a - o + K2;",
    "    vec2 c = a - 1.0 + 2.0 * K2;",
    "    vec3 h = max(0.5 - vec3(dot(a, a), dot(b, b), dot(c, c)), 0.0);",
    "    vec3 n = h * h * h * h * vec3(",
    "        dot(a, hash22(i) * 2.0 - 1.0),",
    "        dot(b, hash22(i + o) * 2.0 - 1.0),",
    "        dot(c, hash22(i + 1.0) * 2.0 - 1.0));",
    "    return dot(n, vec3(70.0));",
    "\x7d"]
  requires := ["hash22"]

def fbmNoise : HelperFunction where
  name := "fbmNoise"
  source := lines [
    "float fbmNoise(vec2 p, int octaves) \x7b",
    "    float value = 0.0;",
    "    float amplitude = 0.5;",
    "    for (int i = 0; i < 8; i++) \x7b",
    "        if (i >= octaves) break;",
    "        value += amplitude * perlin(p);",
    "        p *= 2.0;",
    "        amplitude *= 0.5;",
    "    \x7d",
    "    return value;",
    "\x7d"]
  requires := ["perlin"]

def voronoi : HelperFunction where
  name := "voronoi"
  source := lines [
    "float voronoi(vec2 p) \x7b",
    "    vec2 cell = floor(p);",
    "    vec2 local = fract(p);",
    "    float nearest = 8.0;",
    "    for (int y = -1; y <= 1; y++) \x7b",
    "        for (int x = -1; x <= 1; x++) \x7b",
    "            vec2 offset = vec2(float(x), float(y));",
    "            vec2 r = offset + hash22(cell + offset) - local;",
    "            nearest = min(nearest, dot(r, r));",
    "        \x7d",
    "    \x7d",
    "    return sqrt(nearest);",
    "\x7d"]
  requires := ["hash22"]

def rgbToHsv : HelperFunction where
  name := "rgbToHsv"
  source := lines [
    "vec3 rgbToHsv(vec3 c) \x7b",
    "    vec4 K = vec4(0.0, -1.0 / 3.0, 2.0 / 3.0, -1.0);",
    "    vec4 p = mix(vec4(c.bg, K.wz), vec4(c.gb, K.xy), step(c.b, c.g));",
    "    vec4 q = mix(vec4(p.xyw, c.r), vec4(c.r, p.yzx), step(p.x, c.r));",
    "    float d = q.x - min(q.w, q.y);",
    "    float e = 1.0e-10;",
    "    return vec3(abs(q.z + (q.w - q.y) / (6.0 * d + e)), d / (q.x + e), q.x);",
    "\x7d"]

def hsvToRgb : HelperFunction where
  name := "hsvToRgb"
  source := lines [
    "vec3 hsvToRgb(vec3 c) \x7b",
    "    vec4 K = vec4(1.0, 2.0 / 3.0, 1.0 / 3.0, 3.0);",
    "    vec3 p = abs(fract(c.xxx + K.xyz) * 6.0 - K.www);",
    "    return c.z * mix(K.xxx, clamp(p - K.xxx, 0.0, 1.0), c.y);",
    "\x7d"]

/-- All helper functions, each after those it calls. -/
def all : List HelperFunction :=
  [hash12, hash22, perlin, simplex, fbmNoise, voronoi, rgbToHsv, hsvToRgb]

end NodeShader.Catalog.Functions
